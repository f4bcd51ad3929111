import Flowgraph.Operand
import Flowgraph.Operation.Pending
import Flowgraph.Store.Zero

/-!
# Builtins and channel operators

A builtin is written like a call: its first child is the name, the arguments follow. The
channel operators have their operands from the first child on.
-/

namespace Flowgraph

namespace Op

/-- Close a channel, which works once. -/
def close (c : ChannelId) : Op Unit := do
  if ((← get).channel c).closed then
    throw (.fault .closeOfClosed)
  else
    modify fun s => s.updateChannel c fun ch => { ch with closed := true }

end Op

namespace Look

/-- The length of a value: elements, bytes, entries or buffered values. -/
def length (v : Value) : Look Nat := do
  match v with
  | .nil => return 0
  | .str t => return t.utf8ByteSize
  | .slice b | .struct b => return ((← read).block b).size
  | .map d => return ((← read).dict d).size
  | .chan c => return ((← read).channel c).buffer.length
  | v => throw (v.mismatch "len" "slice, string, map or chan")

end Look

namespace Program

/-- The type that a `make` creates a value of: that of its type expression, or its own. -/
def madeType (p : Program) (id : NodeId) : Except Stop TypeId := do
  let typeExpr ← p.child id 1
  match (← p.node typeExpr).type, (← p.node id).type with
  | some t, _ | none, some t => return t
  | none, none => throw (.malformed typeExpr .makeWithoutType)

/-- The size argument of a `make`, which is zero when absent and may not be negative. -/
def madeSize (p : Program) (f : FrameId) (id : NodeId) : Look Nat := do
  match (← p.node id).child? 2 with
  | none => return 0
  | some arg =>
    let n ← (← p.value f arg).asInt "make"
    if 0 ≤ n.toInt then return n.toInt.toNat
    else throw (.fault (.indexOutOfRange n.toInt 0))

/-- A slice of zero values, a channel with a buffer, or an empty map. -/
def make (p : Program) (f : FrameId) (id : NodeId) : Op Unit := do
  let t ← p.madeType id
  let size ← p.madeSize f id
  match ← p.type t with
  | .slice elem =>
    checkSize size maxValues
    let zeros ← Op.times size (p.graph.zero (some elem))
    p.setOwn f id (← Op.newSlice zeros.toArray)
  | .chan _ => p.setOwn f id (.chan (← Op.newChannel size))
  | .map _ _ => p.setOwn f id (.map (← Op.create fun s => s.newDict {}))
  | other => throw (.fault (.typeMismatch "make" "slice, chan or map" other.category))

/-- The length of the argument. -/
def len (p : Program) (f : FrameId) (id : NodeId) : Op Unit := do
  let n ← Look.length (← p.operand f id 1)
  p.setOwn f id (.ofNat n)

/-- Close a channel. -/
def close (p : Program) (f : FrameId) (id : NodeId) : Op Unit := do
  Op.close (← (← p.operand f id 1).asChannel "close")

/-- Suspend the chain for a number of milliseconds; for no time at all when it is not
positive. -/
def sleep (p : Program) (f : FrameId) (id : NodeId) : Look Pending := do
  let n ← (← p.operand f id 1).asInt "sleep"
  return if 0 < n.toInt then .sleep n.toInt.toNat else .done

/-- Send the second operand on the channel that is the first. -/
def send (p : Program) (f : FrameId) (id : NodeId) : Look Pending := do
  let c ← p.operand f id 0
  let v ← p.operand f id 1
  return .send (← c.asChannel "send") v

/-- Receive from the channel that is the operand. -/
def receive (p : Program) (f : FrameId) (id : NodeId) : Look Pending := do
  return .receive (← (← p.operand f id 0).asChannel "receive") .result

/-- Store what was received; from a closed and drained channel that is a zero value. -/
def storeReceived (p : Program) (f : FrameId) (id : NodeId) : Option Value → Op Unit
  | some v => p.setOwn f id v
  | none => do p.setOwn f id (← p.graph.zero (← p.node id).type)

end Program

end Flowgraph
