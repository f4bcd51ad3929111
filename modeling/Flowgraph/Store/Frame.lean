import Flowgraph.Store.Basic

/-!
# Frames

A frame links to the frame that lies one level further out. A frame is created after its
parent, so the links never form a cycle. Slots beyond the size of a frame do not exist:
reading or writing them fails and changes nothing.
-/

namespace Flowgraph

namespace Store

/-- The frame of that name. -/
def frame (s : Store) (f : FrameId) : Frame := s.frames[f.index]?.getD {}

/-- The slots of a frame. -/
def slots (s : Store) (f : FrameId) : Array Value := (s.frame f).slots

/-- The number of slots of a frame. -/
def frameSize (s : Store) (f : FrameId) : Nat := (s.slots f).size

/-- The content of a slot. -/
def slot? (s : Store) (f : FrameId) (i : Nat) : Option Value := (s.slots f)[i]?

/-- The frame one level out. -/
def parent? (s : Store) (f : FrameId) : Option FrameId := (s.frame f).parent

/-- The frame a number of levels out. -/
def ancestor? (s : Store) (f : FrameId) : Nat → Option FrameId
  | 0 => some f
  | n + 1 =>
    match s.parent? f with
    | some p => s.ancestor? p n
    | none => none

/-- The contents of `count` slots from `start` on, if the frame has them all. -/
def range? (s : Store) (f : FrameId) (start count : Nat) : Option (List Value) :=
  if start + count ≤ s.frameSize f then
    some ((s.slots f).extract start (start + count)).toList
  else
    none

/-- A new frame whose slots are nil. -/
def newFrame (s : Store) (size : Nat) (parent : Option FrameId) : FrameId × Store :=
  (⟨s.frames.size⟩, { s with frames := s.frames.push ⟨Array.replicate size .nil, parent⟩ })

/-- Overwrite a slot; nothing happens beyond the frame's size. -/
def setSlot (s : Store) (f : FrameId) (i : Nat) (v : Value) : Store :=
  { s with frames := s.frames.modify f.index fun fr =>
      { fr with slots := fr.slots.setIfInBounds i v } }

/-- Set every slot of a frame to nil. -/
def clearFrame (s : Store) (f : FrameId) : Store :=
  { s with frames := s.frames.modify f.index fun fr =>
      { fr with slots := fr.slots.map fun _ => .nil } }

@[simp] theorem ancestor?_zero (s : Store) (f : FrameId) : s.ancestor? f 0 = some f := by
  simp [ancestor?]

theorem ancestor?_succ (s : Store) (f : FrameId) (n : Nat) :
    s.ancestor? f (n + 1) = (s.parent? f).bind fun p => s.ancestor? p n := by
  cases h : s.parent? f <;> simp [ancestor?, h]

/-- Going out `m` levels and then `n` levels is going out `m + n` levels. -/
theorem ancestor?_add (s : Store) (f : FrameId) (m n : Nat) :
    s.ancestor? f (m + n) = (s.ancestor? f m).bind fun a => s.ancestor? a n := by
  induction m generalizing f with
  | zero => simp
  | succ m ih =>
    rw [Nat.succ_add, ancestor?_succ, ancestor?_succ]
    cases s.parent? f with
    | none => rfl
    | some p => simpa using ih p

end Store

namespace Op

/-- Create a frame whose slots are nil, if a frame of that size is possible. -/
def newFrame (size : Nat) (parent : Option FrameId) : Op FrameId := do
  checkSize size maxValues
  create fun s => s.newFrame size parent

/-- Overwrite a slot, or stop when the frame has no such slot. -/
def setSlot (f : FrameId) (i : Nat) (v : Value) (missing : Stop) : Op Unit := do
  if i < (← get).frameSize f then
    modify fun s => s.setSlot f i v
  else
    throw missing

/-- Overwrite consecutive slots from left to right, and stop at the first that is missing. -/
def setSlots (f : FrameId) (start : Nat) (vs : List Value) (missing : Stop) : Op Unit :=
  match vs with
  | [] => pure ()
  | v :: rest => do
    setSlot f start v missing
    setSlots f (start + 1) rest missing

end Op

end Flowgraph
