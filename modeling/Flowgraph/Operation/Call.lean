import Flowgraph.Operand
import Flowgraph.Operation.Pending

/-!
# Binding calls

A call is bound before it is started: the callee, the receiver and the arguments are read, and
a declared function gets a fresh frame with the receiver and the arguments in their slots. The
frame links to the frame that a closure was created in, to the global frame for a top-level
function, and to the caller's frame for a forking call.
-/

namespace Flowgraph

/-- The frame that a function's own frame links to. -/
def lexicalParent (env : Option FrameId) : FrameId := env.getD globalFrame

namespace Program

/-- Give a declared function a frame with the receiver and the arguments in their slots. A
receiver is dropped when the function declares none. -/
def activate (p : Program) (decl : NodeId) (parent : FrameId) (receiver : Option Value)
    (args : List Value) : Op Callee := do
  let d ← p.definition decl
  if args.length ≠ d.params.length then
    throw (.malformed decl .argumentCount)
  let frame ← Op.newFrame d.frameSize (some parent)
  let missing := Stop.malformed decl .parameterBeyondFrame
  match d.receiver, receiver with
  | some slot, some v => Op.setSlot frame slot v missing
  | _, _ => pure ()
  (d.params.zip args).forM fun (slot, v) => Op.setSlot frame slot v missing
  return .declared ⟨frame, decl, d.entry, d.results⟩

/-- The stop of a call to something that is no function. -/
def notCallable (op : String) : Value → Stop
  | .nil => .fault (.nilDereference op)
  | v => v.mismatch op "func"

/-- Bind a call with given values. A native gets the receiver as its first argument. -/
def bindValues (p : Program) (callee : Value) (receiver : Option Value) (args : List Value) :
    Op Callee :=
  match callee with
  | .func decl env => p.activate decl (lexicalParent env) receiver args
  | .native name => pure (.native name (receiver.toList ++ args))
  | v => throw (notCallable "call" v)

/-- The node of a call's receiver, and the path from there to the receiver itself. Only a
selector has a receiver. -/
def receiverPart (p : Program) (callee : NodeId) :
    Except Stop (Option (NodeId × List Nat)) := do
  let n ← p.node callee
  if n.kind = .selector then
    let receiver ← p.child callee 0
    let path ← match n.child? 1 with
      | some c => pure ((← p.node c).indices?.getD [])
      | none => pure []
    return some (receiver, path)
  else
    return none

/-- Step from a struct into one of its fields. -/
def promotedField (v : Value) (field : Nat) : Look Value := do
  Look.element (← v.asBlock "field promotion") (saturate field)

/-- Step from what a node has through embedded fields. The last step is made after all others; an
empty path leads nowhere. -/
def promoted (p : Program) (f : FrameId) (id : NodeId) (path : List Nat) : Look Value :=
  match path.getLast? with
  | none => p.value f id
  | some last => do
    let outer ← path.dropLast.foldlM promotedField (← p.value f id)
    promotedField outer last

/-- Steps into promoted fields follow their path. -/
theorem foldlM_promotedField (v : Value) (path : List Nat) :
    path.foldlM promotedField v = Look.follow "field promotion" v path := by
  induction path generalizing v with
  | nil => rfl
  | cons i path ih => simp only [List.foldlM_cons, promotedField, Look.follow, ih, bind_assoc]

/-- It makes no difference that the last step is made after all others. -/
theorem promoted_eq (p : Program) (f : FrameId) (id : NodeId) (path : List Nat) :
    p.promoted f id path = p.value f id >>= fun v => Look.follow "field promotion" v path := by
  rcases List.eq_nil_or_concat path with rfl | ⟨front, last, rfl⟩
  · simp only [promoted, List.getLast?_nil, Look.follow, bind_pure]
  · simp only [promoted, List.concat_eq_append, List.getLast?_concat, List.dropLast_concat,
      ← foldlM_promotedField, List.foldlM_append, List.foldlM_cons, List.foldlM_nil, bind_pure]

/-- The receiver of a call. -/
def receiverValue (p : Program) (f : FrameId) : Option (NodeId × List Nat) → Look (Option Value)
  | none => return none
  | some (node, path) => do
    return some (← p.promoted f node path)

theorem receiverValue_some (p : Program) (f : FrameId) (part : NodeId × List Nat) :
    p.receiverValue f (some part) = (p.value f part.1 >>= fun v =>
      Look.follow "field promotion" v part.2 >>= fun w => pure (some w)) := by
  simp only [receiverValue, promoted_eq, bind_assoc]

/-- Bind the call that a node stands for. -/
def bindCall (p : Program) (f : FrameId) (id : NodeId) (op : String) : Op Callee := do
  let n ← p.node id
  let callee ← p.child id 0
  let part ← p.receiverPart callee
  match ← p.value f callee with
  | .func decl env =>
    let receiver ← p.receiverValue f part
    let args ← p.allValues f (n.children.drop 1)
    p.activate decl (if n.isFork then f else lexicalParent env) receiver args
  | .native name =>
    let receiver ← p.receiverValue f part
    let args ← p.allValues f (n.children.drop 1)
    return .native name (receiver.toList ++ args)
  | v => throw (notCallable op v)

/-- Write the results of a call to the slots of its node, as many as the node is wide. -/
def storeResults (p : Program) (f : FrameId) (id : NodeId) (vs : List Value) : Op Unit := do
  let n ← p.node id
  match n.slot with
  | none => pure ()
  | some slot => Op.setSlots f slot (vs.take n.width) (.malformed id .resultSlotsBeyondFrame)

/-- The results of an activation that has come to its end. -/
def results (a : Activation) : Look (List Value) := do
  match (← read).range? a.frame 0 a.results with
  | some vs => return vs
  | none => throw (.malformed a.decl .tooManyResults)

end Program

end Flowgraph
