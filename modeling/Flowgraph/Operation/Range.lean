import Flowgraph.Operand
import Flowgraph.Operation.Pending
import Flowgraph.Text.Bytes

/-!
# Loops over collections

A range node is visited once per iteration. Its slot says whether there is one more element,
and the slot after it holds the position of the next element; a position of nil or zero starts
from the beginning, and the position is cleared at the end, so that the loop can be entered
again.

The position in a map is a cursor: a struct of the next place and the keys that the map had
when the loop started, the newest first. Keys that are gone when their turn comes are passed
over.
-/

namespace Flowgraph

/-- What a visit of a range node finds. -/
inductive Iteration where
  /-- One more element; `next` is the position after it. -/
  | visit (key value next : Value)
  | finished
  /-- The element has to be received first. -/
  | await (c : ChannelId) (next : Value)
  deriving Repr, Inhabited

/-- The position in a sequence. Nothing and negative numbers count as the start. -/
def sequencePosition : Value → Except Stop Nat
  | .nil => .ok 0
  | .int i => .ok i.toInt.toNat
  | v => .error (v.mismatch "range" "int")

/-- One visit of a slice, a text, a channel or a count, at a position. -/
def Look.iterate (collection : Value) (position : Nat) : Look Iteration := do
  match collection with
  | .nil => return .finished
  | .slice b =>
    match (← read).target? b position with
    | some v => return .visit (.ofNat position) v (.ofNat (position + 1))
    | none => return .finished
  | .str t =>
    match Text.charAt? t position with
    | some c =>
      return .visit (.ofNat position) (.ofNat c.toNat) (.ofNat (position + c.utf8Size))
    | none => return .finished
  | .chan c => return .await c (.ofNat (position + 1))
  | .int n =>
    if (position : Int) < n.toInt then
      return .visit (.ofNat position) .nil (.ofNat (position + 1))
    else return .finished
  | v => throw (v.mismatch "range" "slice, string, map, chan or int")

/-- The first of some keys that a dictionary has, with its value and the number of keys up to
and including it. -/
def Dict.firstPresent? (d : Dict) : List Value → Option (Value × Value × Nat)
  | [] => none
  | k :: ks =>
    match d.get? k with
    | some v => some (k, v, 1)
    | none => (d.firstPresent? ks).map fun (k, v, n) => (k, v, n + 1)

/-- The cursor that a position in a map stands for; at the start it is a new one. -/
def Op.cursor (d : DictId) : Value → Op BlockId
  | .struct b => pure b
  | .nil => start
  | .int 0 => start
  | v => throw (v.mismatch "range" "map cursor")
where
  /-- A cursor over the keys that the map has now. -/
  start : Op BlockId := do
    let keys ← newSlice ((← get).dict d).keys.toArray
    create fun s => s.newBlock #[.int 0, keys]

/-- One visit of a map, at a position. -/
def Op.iterateMap (d : DictId) (position : Value) : Op Iteration := do
  let cursor ← Op.cursor d position
  let keys ← (← Look.element cursor 1).asBlock "range"
  let next ← (← Look.element cursor 0).asInt "range"
  if next.toInt < 0 then
    return .finished
  let s ← get
  match (s.dict d).firstPresent? ((s.block keys).toList.drop next.toInt.toNat) with
  | some (k, v, n) =>
    modify fun s => s.setElement cursor 0 (.ofNat (next.toInt.toNat + n))
    return .visit k v (.struct cursor)
  | none => return .finished

namespace Program

/-- The slot of a range node. -/
def rangeSlot (p : Program) (id : NodeId) : Except Stop Nat := do
  match (← p.node id).slot with
  | some slot => return slot
  | none => throw (.malformed id .rangeWithoutSlot)

/-- Note one more element: store key and value, move on, and say that there was one. -/
def visit (p : Program) (f : FrameId) (id : NodeId) (key value next : Value) : Op Unit := do
  let slot ← p.rangeSlot id
  p.assignTo f (← p.child id 0) key
  p.assignTo f (← p.child id 1) value
  modify fun s => s.setSlot f (slot + 1) next
  p.setOwn f id (.bool true)

/-- Note the end of the loop: clear the position, and say that there was no element. -/
def finish (p : Program) (f : FrameId) (id : NodeId) : Op Unit := do
  let slot ← p.rangeSlot id
  modify fun s => s.setSlot f (slot + 1) .nil
  p.setOwn f id (.bool false)

/-- Visit what was received; a closed and drained channel ends the loop. -/
def visitReceived (p : Program) (f : FrameId) (id : NodeId) (next : Value) :
    Option Value → Op Unit
  | some v => p.visit f id v .nil next
  | none => p.finish f id

/-- One visit of a range node. -/
def range (p : Program) (f : FrameId) (id : NodeId) : Op Pending := do
  let slot ← p.rangeSlot id
  let _ ← p.child id 0
  let _ ← p.child id 1
  let collection ← p.operand f id 2
  let position ← match (← get).slot? f (slot + 1) with
    | some v => pure v
    | none => throw (.malformed id .rangePositionBeyondFrame)
  let iteration ← match collection with
    | .map d => Op.iterateMap d position
    | v => do Look.iterate v (← sequencePosition position)
  match iteration with
  | .visit key value next => p.visit f id key value next; return .done
  | .finished => p.finish f id; return .done
  | .await c next => return .receive c (.visit next)

end Program

end Flowgraph
