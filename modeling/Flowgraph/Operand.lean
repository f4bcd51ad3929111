import Flowgraph.Program
import Flowgraph.Store.Frame

/-!
# Operands and destinations

A node denotes a slot of the frame that lies `level` levels out from the current one. A node
without a slot denotes the value that it stands for. Reading and writing agree on which slot a
node denotes, and fail alike when there is none; only writing to a node without a slot is
different, for it succeeds and changes nothing.
-/

namespace Flowgraph

namespace Program

/-! ### Reading -/

/-- The frame a number of levels out from `f`, on behalf of node `id`. -/
def frameAt (f : FrameId) (level : Nat) (id : NodeId) : Look FrameId := fun s =>
  match s.ancestor? f level with
  | some owner => .ok owner
  | none => .error (.malformed id .levelTooDeep)

/-- The value that a node denotes. -/
def value (p : Program) (f : FrameId) (id : NodeId) : Look Value := do
  let n ← p.node id
  if n.kind = .basicLit ∨ n.kind = .funcDecl then
    return (p.constant? id).getD .nil
  let owner ← frameAt f n.level id
  match n.slot with
  | none => return (p.constant? id).getD .nil
  | some slot =>
    match (← read).slot? owner slot with
    | some v => return v
    | none => throw (.malformed id .slotBeyondFrame)

/-- The contents of consecutive slots of the frame a number of levels out. -/
def slotsAt (f : FrameId) (level start count : Nat) (id : NodeId) : Look (List Value) := do
  let owner ← frameAt f level id
  match (← read).range? owner start count with
  | some vs => return vs
  | none => throw (.malformed id .resultSlotsBeyondFrame)

/-- All values that a node denotes: as many as it is wide, if it has a slot. -/
def values (p : Program) (f : FrameId) (id : NodeId) : Look (List Value) := do
  let n ← p.node id
  match n.slot with
  | some slot =>
    if 1 < n.width then slotsAt f n.level slot n.width id
    else return [← p.value f id]
  | none => return [← p.value f id]

/-- All values that a list of nodes denotes, in order. -/
def allValues (p : Program) (f : FrameId) (ids : List NodeId) : Look (List Value) := do
  return (← ids.mapM (p.values f)).flatten

/-- The `i`-th child of a node. -/
def child (p : Program) (id : NodeId) (i : Nat) : Except Stop NodeId := do
  match (← p.node id).child? i with
  | some c => .ok c
  | none => .error (.malformed id .missingOperand)

/-- The value of the `i`-th child of a node. -/
def operand (p : Program) (f : FrameId) (id : NodeId) (i : Nat) : Look Value := do
  p.value f (← p.child id i)

/-- Follow the control flow from a node: a node with two successors chooses by its own
value. -/
def successor (p : Program) (f : FrameId) (id : NodeId) : Look (Option NodeId) := do
  let n ← p.node id
  match n.otherwise with
  | none => return n.next
  | some whenFalse =>
    if ← (← p.value f id).asBool "branch" then return n.next else return some whenFalse

/-! ### Writing -/

/-- Write an operation's result to its own slot, which lies in the current frame whatever the
node's level. -/
def setOwn (p : Program) (f : FrameId) (id : NodeId) (v : Value) : Op Unit := do
  match (← p.node id).slot with
  | none => throw (.malformed id .noResultSlot)
  | some slot => Op.setSlot f slot v (.malformed id .slotBeyondFrame)

/-- Write to the slot that a destination denotes. A destination without a slot drops the
value. -/
def assignTo (p : Program) (f : FrameId) (id : NodeId) (v : Value) : Op Unit := do
  let n ← p.node id
  match n.slot with
  | none => pure ()
  | some slot =>
    let owner ← frameAt f n.level id
    Op.setSlot owner slot v (.malformed id .slotBeyondFrame)

/-- Write to destinations from left to right, as long as there are values. -/
def assignAll (p : Program) (f : FrameId) (ids : List NodeId) (vs : List Value) : Op Unit :=
  (ids.zip vs).forM fun (id, v) => p.assignTo f id v

end Program

end Flowgraph
