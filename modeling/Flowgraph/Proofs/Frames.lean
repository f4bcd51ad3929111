import Mathlib.Tactic.Common
import Flowgraph.Store.Frame

/-!
# Frames of changed stores

Two things are done to frames: slots are overwritten, and frames are added. Neither moves a frame
that is there to another place, nor changes its size or what it links to.
-/

namespace Flowgraph

namespace Store

variable {s : Store}

/-! ### Overwritten slots -/

/-- A frame is modified, and all others are what they were. -/
lemma frame_modify {change : Frame → Frame} (hempty : change {} = {}) (f g : FrameId) :
    ({ s with frames := s.frames.modify f.index change } : Store).frame g =
      if g = f then change (s.frame g) else s.frame g := by
  simp only [frame, Array.getElem?_modify]
  by_cases h : g = f
  · subst h
    rw [if_pos rfl, if_pos rfl]
    cases s.frames[g.index]? with
    | none => exact hempty.symm
    | some fr => rfl
  · have hne : f.index ≠ g.index := fun he => h (by cases f; cases g; simp_all)
    rw [if_neg hne, if_neg h]

lemma frame_setSlot (f : FrameId) (i : Nat) (v : Value) (g : FrameId) :
    (s.setSlot f i v).frame g =
      if g = f then { s.frame g with slots := (s.slots g).setIfInBounds i v } else s.frame g :=
  frame_modify (by simp) f g

lemma slots_setSlot (f : FrameId) (i : Nat) (v : Value) (g : FrameId) :
    (s.setSlot f i v).slots g = if g = f then (s.slots g).setIfInBounds i v else s.slots g := by
  rw [slots, frame_setSlot]
  split_ifs <;> rfl

@[simp] lemma frameSize_setSlot (f : FrameId) (i : Nat) (v : Value) (g : FrameId) :
    (s.setSlot f i v).frameSize g = s.frameSize g := by
  rw [frameSize, slots_setSlot]
  split_ifs
  · exact Array.size_setIfInBounds
  · rfl

@[simp] lemma parent?_setSlot (f : FrameId) (i : Nat) (v : Value) (g : FrameId) :
    (s.setSlot f i v).parent? g = s.parent? g := by
  rw [parent?, frame_setSlot]
  split_ifs <;> rfl

/-- Only the slot itself is overwritten. -/
lemma slot?_setSlot_of_ne {f g : FrameId} {i j : Nat} (h : g = f → j ≠ i) (v : Value) :
    (s.setSlot f i v).slot? g j = s.slot? g j := by
  rw [slot?, slots_setSlot]
  split_ifs with hg
  · rw [Array.getElem?_setIfInBounds, if_neg (Ne.symm (h hg))]
    rfl
  · rfl

/-- Overwrite consecutive slots from left to right. -/
def putAll (s : Store) (f : FrameId) (start : Nat) : List Value → Store
  | [] => s
  | v :: vs => (s.setSlot f start v).putAll f (start + 1) vs

lemma slot?_setSlot_self {f : FrameId} {i : Nat} (h : i < s.frameSize f) (v : Value) :
    (s.setSlot f i v).slot? f i = some v := by
  rw [slot?, slots_setSlot, if_pos rfl]
  exact Array.getElem?_setIfInBounds_self_of_lt h

@[simp] lemma frameSize_putAll (f : FrameId) (start : Nat) (vs : List Value) (g : FrameId) :
    (s.putAll f start vs).frameSize g = s.frameSize g := by
  induction vs generalizing s start with
  | nil => rfl
  | cons v vs ih => rw [putAll, ih, frameSize_setSlot]

/-! ### One more frame -/

/-- The name of the next frame. -/
def nextFrame (s : Store) : FrameId := ⟨s.frames.size⟩

/-- The store with one more frame. -/
def withFrame (s : Store) (slots : Array Value) (parent : FrameId) : Store :=
  { s with frames := s.frames.push ⟨slots, some parent⟩ }

variable {slots : Array Value} {parent : FrameId}

lemma frame_withFrame (g : FrameId) :
    (s.withFrame slots parent).frame g =
      if g = s.nextFrame then ⟨slots, some parent⟩ else s.frame g := by
  simp only [frame, withFrame, Array.getElem?_push]
  by_cases h : g = s.nextFrame
  · rw [if_pos h, if_pos (by rw [h]; rfl)]
    rfl
  · have hne : g.index ≠ s.frames.size := fun he => h (by cases g; exact congrArg FrameId.mk he)
    rw [if_neg h, if_neg hne]

@[simp] lemma frameSize_nextFrame :
    (s.withFrame slots parent).frameSize s.nextFrame = slots.size := by
  rw [frameSize, Store.slots, frame_withFrame, if_pos rfl]

lemma setSlot_nextFrame (i : Nat) (v : Value) :
    (s.withFrame slots parent).setSlot s.nextFrame i v
      = s.withFrame (slots.setIfInBounds i v) parent := by
  simp only [withFrame, setSlot, nextFrame, Store.mk.injEq, and_true]
  refine Array.ext (by simp) fun j hj _ => ?_
  rw [Array.size_modify, Array.size_push] at hj
  by_cases h : j = s.frames.size
  · subst h
    rw [Array.getElem_modify_self, Array.getElem_push_eq, Array.getElem_push_eq]
  · have hlt : j < s.frames.size := by omega
    rw [Array.getElem_modify_of_ne (Ne.symm h), Array.getElem_push_lt hlt,
      Array.getElem_push_lt hlt]

end Store

/-- All slots are overwritten, or as many as the frame has before the operation stops. -/
lemma Op.setSlots_apply (f : FrameId) (start : Nat) (vs : List Value) (missing : Stop)
    (s : Store) : Op.setSlots f start vs missing s =
      if vs = [] ∨ start + vs.length ≤ s.frameSize f then .ok () (s.putAll f start vs)
      else .error missing (s.putAll f start (vs.take (s.frameSize f - start))) := by
  induction vs generalizing start s with
  | nil => rfl
  | cons v vs ih =>
    rw [setSlots, bind_apply, setSlot, bind_apply, get_apply]
    dsimp only
    by_cases hlt : start < s.frameSize f
    · obtain ⟨k, hk⟩ : ∃ k, s.frameSize f - start = k + 1 := ⟨s.frameSize f - start - 1, by omega⟩
      have hk' : s.frameSize f - (start + 1) = k := by omega
      rw [if_pos hlt, modify_apply]
      dsimp only
      rw [ih, Store.frameSize_setSlot, hk, hk', List.take_succ_cons, List.length_cons]
      by_cases hvs : vs = []
      · subst hvs
        rw [if_pos (.inl rfl), if_pos (.inr hlt)]
        rfl
      · have hiff : (vs = [] ∨ start + 1 + vs.length ≤ s.frameSize f) ↔
            (v :: vs = [] ∨ start + (vs.length + 1) ≤ s.frameSize f) := by
          simp only [hvs, reduceCtorEq, false_or]
          omega
        rw [if_congr hiff rfl rfl]
        rfl
    · have hz : s.frameSize f - start = 0 := by omega
      have hbeyond : ¬(v :: vs = [] ∨ start + (v :: vs).length ≤ s.frameSize f) := by
        rw [List.length_cons, or_iff_right (List.cons_ne_nil v vs)]
        omega
      rw [if_neg hlt, throw_apply, if_neg hbeyond, hz, List.take_zero]
      rfl

end Flowgraph
