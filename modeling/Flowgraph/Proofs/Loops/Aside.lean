import Mathlib.Tactic.Common
import Flowgraph.Proofs.Loops.Secluded
import Flowgraph.Proofs.Release.Freed

/-!
# What happens without regard to a slot

A move disregards a slot if it neither reads nor writes it, so that it would do the same whatever
the slot held. A host disregards it if what it brings does not come from the slot. Then blocks to
which only the slot leads are left alone.
-/

namespace Flowgraph

open Named

variable {f g : FrameId} {i j : Nat} {s : Store} {v w : Value} {H : BlockId → Prop}

/-! ### Slots and edits -/

namespace Store

lemma setSlot_comm (h : g = f → j ≠ i) (v w : Value) :
    (s.setSlot f i v).setSlot g j w = (s.setSlot g j w).setSlot f i v := by
  have hframes : ((s.setSlot f i v).setSlot g j w).frames =
      ((s.setSlot g j w).setSlot f i v).frames := by
    refine Array.ext_getElem? fun k => ?_
    simp only [setSlot, Array.getElem?_modify]
    by_cases hf : f.index = k
    · by_cases hg : g.index = k
      · have hji : j ≠ i := h (by cases f; cases g; exact congrArg FrameId.mk (hg.trans hf.symm))
        simp only [if_pos hf, if_pos hg, Option.map_map]
        refine congrArg (Option.map · _) (funext fun fr => ?_)
        simp only [Function.comp_apply, Array.setIfInBounds_comm _ _ hji.symm]
      · simp only [if_pos hf, if_neg hg]
    · simp only [if_neg hf]
  exact congrArg (fun frames => { s with frames := frames }) hframes

/-- To write what a slot holds changes nothing. -/
lemma setSlot_self (h : s.slot? f i = some v) : s.setSlot f i v = s := by
  have hframes : (s.setSlot f i v).frames = s.frames := by
    refine Array.ext_getElem? fun k => ?_
    simp only [setSlot, Array.getElem?_modify]
    split_ifs with hk
    · subst hk
      simp only [slot?, slots, frame] at h
      cases hf : s.frames[f.index]? with
      | none => rfl
      | some fr =>
        rw [hf] at h
        have hslots : fr.slots.setIfInBounds i v = fr.slots := by
          refine Array.ext_getElem? fun l => ?_
          rw [Array.getElem?_setIfInBounds]
          split_ifs with hl hi
          · subst hl
            exact h.symm
          · subst hl
            exact (Array.getElem?_eq_none (Nat.not_lt.mp hi)).symm
          · rfl
        simp only [Option.map_some, hslots]
    · rfl
  exact congrArg (fun frames => { s with frames := frames }) hframes

/-- An edit overwrites a slot. -/
def Edit.Overwrites (f : FrameId) (i : Nat) : Edit → Prop
  | .setSlot g j _ => g = f ∧ j = i
  | .clearFrame g => g = f
  | _ => False

variable {e : Edit}

lemma Edit.Brings.mono {V V' : Value → Prop} (h : e.Brings V) (hV : ∀ v, V v → V' v) :
    e.Brings V' := by
  cases e with
  | setSlot f i v => exact hV v h
  | setElement b i v => exact hV v h
  | newBlock elements => exact fun v hv => hV v (h v hv)
  | newDict content => exact fun e he => ⟨hV _ (h e he).1, hV _ (h e he).2⟩
  | insertEntry d k v => exact ⟨hV k h.1, hV v h.2⟩
  | _ => exact trivial

lemma edit_setSlot (hlt : f.index < s.frames.size) (he : ¬e.Overwrites f i) (v : Value) :
    (s.edit e).setSlot f i v = (s.setSlot f i v).edit e := by
  cases e with
  | setSlot g j w => exact (setSlot_comm (fun hg hj => he ⟨hg, hj⟩) v w).symm
  | clearFrame g =>
    refine congrArg (fun frames => { s with frames := frames }) (Array.ext_getElem? fun k => ?_)
    simp only [edit, clearFrame, setSlot, Array.getElem?_modify]
    by_cases hf : f.index = k
    · have hg : g.index ≠ k := fun hg =>
        he (by cases f; cases g; exact congrArg FrameId.mk (hg.trans hf.symm))
      simp only [if_pos hf, if_neg hg]
    · simp only [if_neg hf]
  | newFrame size parent =>
    refine congrArg (fun frames => { s with frames := frames }) (Array.ext_getElem? fun k => ?_)
    simp only [edit, newFrame, setSlot, Array.getElem?_modify, Array.getElem?_push,
      Array.size_modify]
    by_cases hk : k = s.frames.size
    · simp only [if_pos hk, if_neg (Nat.ne_of_lt (hk ▸ hlt))]
    · simp only [if_neg hk]
  | _ => rfl

lemma slot?_edit (hlt : i < s.frameSize f) (he : ¬e.Overwrites f i) :
    (s.edit e).slot? f i = s.slot? f i := by
  cases e with
  | setSlot g j w => exact slot?_setSlot_of_ne (fun hg hj => he ⟨hg.symm, hj.symm⟩) w
  | clearFrame g => exact slot?_clearFrame_of_ne (fun hg => he hg.symm) i
  | newFrame size parent =>
    have hsize : f.index ≠ s.frames.size := by
      intro hf
      rw [frameSize, slots, frame, Array.getElem?_eq_none (Nat.le_of_eq hf.symm)] at hlt
      exact Nat.not_lt_zero _ hlt
    rw [slot?, slot?, slots, slots, frame, frame, edit, newFrame, Array.getElem?_push, if_neg hsize]
  | _ => rfl

end Store

/-! ### Disregard -/

namespace Machine

variable {m m' : Machine}

/-- Overwrite a slot. -/
def putSlot (m : Machine) (f : FrameId) (i : Nat) (v : Value) : Machine :=
  m.mapStore fun s => s.setSlot f i v

/-- A move neither reads nor writes a slot: had the slot held something else, the move would have
done the same, and the slot would still hold it. -/
def Ignores (m : Machine) (mv : Move) (f : FrameId) (i : Nat) : Prop :=
  ∀ v, (m.putSlot f i v).step mv = (m.step mv).putSlot f i v

/-- Some blocks to which only a slot leads: without it, nothing else would refer to them. -/
structure Private (m : Machine) (f : FrameId) (i : Nat) (H : BlockId → Prop) : Prop where
  led : ∀ b, H b → ∃ v w, m.store.slot? f i = some v ∧ m.store.Leads [v] w ∧
    Mentions w .blocks b.index
  secluded : Secludes H m.store (m.putSlot f i .nil)

/-- A value that can be come by without reading a slot: it does not refer to blocks to which only
the slot leads. -/
def Elsewhere (m : Machine) (f : FrameId) (i : Nat) (v : Value) : Prop :=
  ∀ H, m.Private f i H → v.Avoids H

/-- What may happen while nobody reads a slot or writes to it: moves that do neither, and what a
host does with values that it has not come by through the slot. -/
inductive Disregards (f : FrameId) (i : Nat) (m : Machine) : Machine → Prop
  | move (mv : Move) (h : m.Ignores mv f i) : Disregards f i m (m.step mv)
  | host {c : Chain} (hc : c.Hosted)
    (h : c.Bears (m.Elsewhere f i) (fun _ _ => True) fun _ => True) :
    Disregards f i m (m.addChain c).2
  | edit {e : Store.Edit} (h : ¬e.Overwrites f i) (hb : e.Brings (m.Elsewhere f i))
    (hset : ∀ b j v, e = .setElement b j v → m.Elsewhere f i (.struct b)) :
    Disregards f i m { m with store := m.store.edit e }
  | takeFaults : Disregards f i m m.takeFaults.2

namespace Disregards

lemma fits (h : m.Disregards f i m') (hfit : m.Fits) : m'.Fits := by
  cases h with
  | move mv h => exact hfit.step mv
  | host hc h => exact hfit.addChain (fits_hosted hc)
  | edit _ _ _ => exact hfit
  | takeFaults => exact hfit

/-- The slot holds what it held. -/
lemma slot? (h : m.Disregards f i m') (hfit : m.Fits) (hv : m.store.slot? f i = some v) :
    m'.store.slot? f i = some v := by
  have hlt : i < m.store.frameSize f := (Array.getElem?_eq_some_iff.mp hv).1
  cases h with
  | move mv h =>
    have hsame : m.putSlot f i v = m := by
      rw [putSlot, mapStore, Store.setSlot_self hv]
    have hstep := h v
    rw [hsame] at hstep
    rw [hstep]
    exact Store.slot?_setSlot_self (frameSize_step hfit hlt mv) v
  | edit he _ _ => exact (Store.slot?_edit hlt he).trans hv
  | host => exact hv
  | takeFaults => exact hv

/-- Blocks to which only the slot leads are left alone, and nothing else comes to refer to them. -/
theorem secludes (h : m.Disregards f i m') (hp : m.program.Loaded)
    (hn : m.program.natives.Modest) (hfit : m.Fits) (hv : m.store.slot? f i = some v)
    (hH : m.Private f i H) : Secludes H m.store (m'.putSlot f i .nil) := by
  have hlt : i < m.store.frameSize f := (Array.getElem?_eq_some_iff.mp hv).1
  cases h with
  | move mv h =>
    -- The move does the same without what the slot holds, and then nothing leads to the blocks.
    rw [← h .nil]
    exact hH.secluded.step hp hn hfit mv
  | host hc h =>
    refine hH.secluded.addChain ⟨fun _ _ => trivial, ?_⟩
    exact h.stage.mono fun w hw => hw H hH
  | @edit e he hb hset =>
    have hframe : f.index < m.store.frames.size := by
      by_contra hle
      rw [Store.frameSize, Store.slots, Store.frame,
        Array.getElem?_eq_none (Nat.not_lt.mp hle)] at hlt
      exact Nat.not_lt_zero _ hlt
    have hedit := hH.secluded.edit (hb.mono fun w hw => hw H hH) fun b j w he hb =>
      hset b j w he H hH b hb ⟨rfl, rfl⟩
    have hsame : (m.store.edit e).setSlot f i .nil = (m.store.setSlot f i .nil).edit e :=
      Store.edit_setSlot hframe he .nil
    constructor
    case store =>
      have hstore := hedit.store
      change Store.Secludes H m.store ((m.store.edit e).setSlot f i .nil)
      rw [hsame]
      exact hstore
    case chains => exact hedit.chains
  | takeFaults => exact ⟨hH.secluded.store, hH.secluded.chains⟩

end Disregards

end Machine

end Flowgraph
