import Flowgraph.Store.Render

/-!
# Lifetimes

A host holds frames by handles. What a handle, or anything that is itself in use, refers to is
in use; everything else is gone. Items that refer to each other in a circle keep each other in
use, also when nothing else refers to them. A frame whose slots hold closures over the frame
itself is such a circle: it can be released once nothing but its handle and those slots
refers to it.
-/

namespace Flowgraph

/-- Something in the store that values can refer to. -/
inductive Item where
  | frame (f : FrameId)
  | block (b : BlockId)
  | dict (d : DictId)
  | channel (c : ChannelId)
  deriving DecidableEq, Repr

/-- What a value itself refers to. -/
def Value.item? : Value → Option Item
  | slice b | struct b | pointer b _ => some (.block b)
  | map d => some (.dict d)
  | chan c => some (.channel c)
  | func _ env => env.map .frame
  | nil | bool _ | int _ | float _ | str _ | native _ => none

/-- Whether a value is a closure over a frame. -/
def Value.captures (f : FrameId) : Value → Bool
  | func _ (some g) => f == g
  | _ => false

namespace Store

/-- The values that an item holds. -/
def contents (s : Store) : Item → List Value
  | .frame f => (s.slots f).toList
  | .block b => (s.block b).toList
  | .dict d => (s.dict d).entries.flatMap fun (k, v) => [k, v]
  | .channel c => (s.channel c).buffer

/-- What an item refers to, once for every reference: its contents and, for a frame, the frame
further out. -/
def references (s : Store) (i : Item) : List Item :=
  let outer := match i with
    | .frame f => (s.parent? f).toList.map .frame
    | _ => []
  outer ++ (s.contents i).filterMap Value.item?

/-- Everything that was ever created. -/
def items (s : Store) : List Item :=
  (List.range s.frames.size).map (fun i => .frame ⟨i⟩)
    ++ (List.range s.blocks.size).map (fun i => .block ⟨i⟩)
    ++ (List.range s.dicts.size).map (fun i => .dict ⟨i⟩)
    ++ (List.range s.channels.size).map (fun i => .channel ⟨i⟩)

/-- Those of some items that a handle or another of them refers to. -/
def referenced (s : Store) (handles : List FrameId) (among : List Item) : List Item :=
  let targets := handles.map .frame ++ among.flatMap s.references
  among.filter fun i => targets.contains i

/-- Drop unreferenced items, and then those that are unreferenced without them, and so on. -/
def dropUnreferenced (s : Store) (handles : List FrameId) : Nat → List Item → List Item
  | 0, among => among
  | n + 1, among =>
    let rest := s.referenced handles among
    if rest.length = among.length then among else s.dropUnreferenced handles n rest

/-- The items in use. Every round but the last drops at least one item. -/
def inUse (s : Store) (handles : List FrameId) : List Item :=
  s.dropUnreferenced handles s.items.length s.items

/-- How many references there are to a frame: handles, and references of items in use. -/
def referenceCount (s : Store) (handles : List FrameId) (f : FrameId) : Nat :=
  handles.count f + ((s.inUse handles).flatMap s.references).count (.frame f)

/-- How many slots of a frame hold a closure over the frame itself. -/
def selfCaptures (s : Store) (f : FrameId) : Nat :=
  (s.slots f).toList.countP (Value.captures f)

/-- Whether one handle and the frame's own closures over itself are all that refers to it. -/
def releasable (s : Store) (handles : List FrameId) (f : FrameId) : Bool :=
  0 < s.selfCaptures f && s.referenceCount handles f == s.selfCaptures f + 1

/-- Set the slots of a frame to nil if nothing else can reach them any more. -/
def release (s : Store) (handles : List FrameId) (f : FrameId) : Bool × Store :=
  if s.releasable handles f then (true, s.clearFrame f) else (false, s)

end Store

/-! ### Frames held by number -/

/-- Frames with the handles by which a host holds them, in the order of creation. -/
structure FrameTable where
  store : Store := {}
  handles : Array (Option FrameId) := #[]
  deriving Inhabited

namespace FrameTable

/-- The frame of a number whose handle is still held. -/
def frame? (t : FrameTable) (n : Nat) : Option FrameId := (t.handles[n]?).join

/-- The handles that are still held. -/
def held (t : FrameTable) : List FrameId := t.handles.toList.filterMap id

/-- The number under which a frame is still held. -/
def number? (t : FrameTable) (f : FrameId) : Option Nat :=
  t.handles.findIdx? fun h => h == some f

/-- Create a frame and hold it, if a frame of that size is possible. -/
def create (t : FrameTable) (size : Nat) (parent : Option FrameId) :
    Except Stop (Nat × FrameTable) := do
  checkSize size maxValues
  let (f, store) := t.store.newFrame size parent
  return (t.handles.size, { store := store, handles := t.handles.push (some f) })

/-- Let go of a frame. -/
def drop (t : FrameTable) (n : Nat) : FrameTable :=
  { t with handles := t.handles.setIfInBounds n none }

/-- Write a slot; it fails when the frame has no such slot. -/
def set (t : FrameTable) (f : FrameId) (i : Nat) (v : Value) : Bool × FrameTable :=
  (decide (i < t.store.frameSize f), { t with store := t.store.setSlot f i v })

/-- Release a frame that only captures itself. -/
def release (t : FrameTable) (f : FrameId) : Bool × FrameTable :=
  let (released, store) := t.store.release t.held f
  (released, { t with store := store })

end FrameTable

end Flowgraph
