import Flowgraph.Operand
import Flowgraph.Store.Zero

/-!
# Assignment

Sources are read before any destination is written, so that an assignment may exchange
variables.
-/

namespace Flowgraph

namespace Program

/-- The first half of the children are destinations, the second half their sources. -/
def assign (p : Program) (f : FrameId) (id : NodeId) : Op Unit := do
  let children := (← p.node id).children
  if children.isEmpty || children.length % 2 != 0 then
    throw (.malformed id .unevenAssignment)
  let half := children.length / 2
  let vs ← ((children.drop half).mapM (p.value f) : Look (List Value))
  p.assignAll f (children.take half) vs

/-- The last child is a source of as many values as there are destinations before it. -/
def assignSpread (p : Program) (f : FrameId) (id : NodeId) : Op Unit := do
  let children := (← p.node id).children
  match children.getLast? with
  | none => throw (.malformed id .spreadWithoutSource)
  | some source =>
    let n ← p.node source
    match n.slot with
    | none => throw (.malformed source .sourceWithoutSlot)
    | some start =>
      let destinations := children.dropLast
      let vs ← slotsAt f n.level start destinations.length source
      p.assignAll f destinations vs

/-- Every child but the last receives a zero value of its own. -/
def assignZero (p : Program) (f : FrameId) (id : NodeId) : Op Unit := do
  let n ← p.node id
  n.children.dropLast.forM fun destination => do
    p.assignTo f destination (← p.graph.zero n.type)

/-- Write through a pointer. The value is read before the pointer. -/
def assignPointer (p : Program) (f : FrameId) (id : NodeId) : Op Unit := do
  let v ← p.operand f id 1
  match ← p.operand f id 0 with
  | .pointer b i =>
    if i < ((← get).block b).size then
      modify fun s => s.setElement b i v
    else
      throw (.malformed id .pointerPastEnd)
  | .nil => throw (.fault (.nilDereference "pointer store"))
  | target => throw (target.mismatch "pointer store" "pointer")

/-- Write to an entry of a map. The first child holds the map and the key. -/
def assignMap (p : Program) (f : FrameId) (id : NodeId) : Op Unit := do
  let target ← p.child id 0
  let m ← p.operand f target 0
  let k ← p.operand f target 1
  let v ← p.operand f id 1
  match ← m.asDict "map assignment" with
  | some d => modify fun s => s.insertEntry d k v
  | none => throw (.fault .nilMap)

end Program

end Flowgraph
