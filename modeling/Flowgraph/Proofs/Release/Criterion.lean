import Mathlib.Logic.Relation
import Flowgraph.Proofs.Frames
import Flowgraph.Proofs.Release.Live

/-!
# When a frame is released

The count of references to a frame is one more than the count of its own closures over itself
exactly when its handle and those closures are all that refers to it. So a frame is released when
nobody else can reach it, and only then.
-/

namespace Flowgraph

/-! ### Counting -/

/-- Something is in a list once when it is in one place only. -/
lemma count_eq_one_iff {α : Type} [BEq α] [LawfulBEq α] {a : α} {l : List α} {n : Nat}
    (h : l[n]? = some a) : l.count a = 1 ↔ ∀ k : Nat, l[k]? = some a → k = n := by
  induction l generalizing n with
  | nil => cases h
  | cons b l ih =>
    cases n with
    | zero =>
      cases Option.some.inj h
      rw [List.count_cons_self, Nat.succ_inj, List.count_eq_zero]
      constructor
      · intro hno k hk
        cases k with
        | zero => rfl
        | succ k =>
          rw [List.getElem?_cons_succ] at hk
          exact absurd (List.mem_of_getElem? hk) hno
      · intro hall ha
        obtain ⟨k, hk⟩ := List.mem_iff_getElem?.mp ha
        exact Nat.succ_ne_zero k (hall (k + 1) hk)
    | succ n =>
      rw [List.getElem?_cons_succ] at h
      by_cases hb : b = a
      · subst hb
        have hpos : 0 < l.count b := List.count_pos_iff.mpr (List.mem_of_getElem? h)
        rw [List.count_cons_self]
        constructor
        · intro hone
          omega
        · exact fun hall => absurd (hall 0 rfl) (Nat.succ_ne_zero n).symm
      · rw [List.count_cons_of_ne hb, ih h]
        constructor
        · intro hall k hk
          cases k with
          | zero => exact absurd (Option.some.inj hk) hb
          | succ k => rw [hall k hk]
        · exact fun hall k hk => Nat.succ.inj (hall (k + 1) hk)

namespace Store

variable {s : Store} {handles : List FrameId} {f : FrameId}

/-- How often a frame refers to itself. -/
lemma count_references_self (f : FrameId) : (s.references (.frame f)).count (.frame f) =
    (if s.parent? f = some f then 1 else 0) + s.selfCaptures f := by
  have hcaptures : ∀ v : Value, (v.item? == some (.frame f)) = v.captures f := fun v => by
    rw [Bool.eq_iff_iff, beq_iff_eq, Value.item?_eq_frame, Value.captures_iff]
  rw [references, List.count_append, List.count_filterMap, selfCaptures]
  simp only [hcaptures]
  refine congrArg₂ (· + ·) ?_ rfl
  cases s.parent? f with
  | none => rfl
  | some g =>
    by_cases hg : g = f
    · subst hg
      simp
    · simp [hg]

/-- Every reference is a handle, is held by the frame itself, or by something else in use. -/
lemma referenceCount_eq (hf : .frame f ∈ s.inUse handles) : s.referenceCount handles f =
    handles.count f + ((if s.parent? f = some f then 1 else 0) + s.selfCaptures f) +
      (((s.inUse handles).erase (.frame f)).flatMap s.references).count (.frame f) := by
  have hperm := (List.perm_cons_erase hf).flatMap_right s.references
  rw [referenceCount, hperm.count_eq, List.flatMap_cons, List.count_append,
    count_references_self]
  omega

/-- Nothing else in use refers to the frame. -/
lemma count_erase_eq_zero : (((s.inUse handles).erase (.frame f)).flatMap s.references).count
    (.frame f) = 0 ↔ ∀ i ∈ s.inUse handles, .frame f ∈ s.references i → i = .frame f := by
  rw [List.count_eq_zero, List.mem_flatMap]
  constructor
  · intro h i hi hf
    by_contra hne
    exact h ⟨i, (nodup_inUse.mem_erase_iff).mpr ⟨hne, hi⟩, hf⟩
  · rintro h ⟨i, hi, hf⟩
    obtain ⟨hne, hi⟩ := nodup_inUse.mem_erase_iff.mp hi
    exact hne (h i hi hf)

/-- A frame with closures over itself is there. -/
lemma lt_of_selfCaptures (h : 0 < s.selfCaptures f) : f.index < s.frames.size := by
  by_contra hno
  simp [selfCaptures, slots, frame, Array.getElem?_eq_none (Nat.not_lt.mp hno)] at h

end Store

namespace FrameTable

variable {t : FrameTable} {n k : Nat} {f g p : FrameId} {r : Reference}

/-! ### The criterion -/

lemma count_held_eq_one (hn : t.frame? n = some f) :
    t.held.count f = 1 ↔ ∀ k, t.frame? k = some f → k = n := by
  have hcount : t.held.count f = t.handles.toList.count (some f) := by
    rw [held, List.count_filterMap]
    rfl
  have hframe : ∀ k, t.frame? k = some f ↔ t.handles.toList[k]? = some (some f) := fun k => by
    rw [frame?, Array.getElem?_toList, Option.join_eq_some_iff]
  simp only [hcount, hframe]
  exact count_eq_one_iff ((hframe n).mp hn)

lemma selfCaptures_pos : 0 < t.store.selfCaptures f ↔ ∃ i, t.target? (.slot f i) = some f := by
  have hslots : (∃ v ∈ (t.store.slots f).toList, v.item? = some (.frame f)) ↔
      ∃ i : Nat, (t.store.slots f)[i]?.bind Value.env? = some f := exists_env_array
  simp only [Value.item?_eq_frame, ← Value.captures_iff] at hslots
  rw [Store.selfCaptures, List.countP_pos_iff, hslots]
  rfl

/-- Nothing but a handle and the frame's own closures refers to a frame. -/
structure Alone (t : FrameTable) (n : Nat) (f : FrameId) : Prop where
  /-- Some slot of the frame directly holds a closure over the frame. -/
  captured : ∃ i, t.target? (.slot f i) = some f
  /-- Every live reference is the handle or such a slot. -/
  only : ∀ r, t.Refers r f → r = .handle n ∨ ∃ i, r = .slot f i

lemma alone_iff (hlive : t.Live (.frame f)) :
    t.Alone n f ↔ 0 < t.store.selfCaptures f ∧ (∀ k, t.frame? k = some f → k = n) ∧
      t.store.parent? f ≠ some f ∧
      ∀ i, t.Live i → .frame f ∈ t.store.references i → i = .frame f := by
  rw [selfCaptures_pos]
  constructor
  · rintro ⟨hcaptured, honly⟩
    refine ⟨hcaptured, fun k hk => ?_, fun hparent => ?_, fun i hi hif => ?_⟩
    · rcases honly (.handle k) ⟨hk, fun i hi => by cases hi⟩ with h | ⟨_, h⟩
      · exact Reference.handle.inj h
      · cases h
    · have href : t.Refers (.outer f) f := ⟨hparent, fun i hi => by cases hi; exact hlive⟩
      rcases honly _ href with h | ⟨_, h⟩ <;> cases h
    · obtain ⟨r, hr, ht⟩ := mem_references_frame.mp hif
      have href : t.Refers r f := ⟨ht, fun j hj => by rw [hr] at hj; cases hj; exact hi⟩
      rcases honly r href with rfl | ⟨k, rfl⟩
      · cases hr
      · cases hr
        rfl
  · rintro ⟨hcaptured, hhandles, hparent, hitems⟩
    refine ⟨hcaptured, fun r href => ?_⟩
    cases hr : r.holder? with
    | none =>
      cases r with
      | handle k => exact .inl (congrArg _ (hhandles k href.1))
      | _ => cases hr
    | some i =>
      have hi := hitems i (href.2 i hr) (mem_references_frame.mpr ⟨r, hr, href.1⟩)
      subst hi
      cases r with
      | slot g i =>
        cases hr
        exact .inr ⟨i, rfl⟩
      | outer g =>
        cases hr
        exact absurd href.1 hparent
      | _ => cases hr

/-- A frame is released exactly when it is alone. -/
theorem release_iff (hn : t.frame? n = some f) : (t.release f).1 = true ↔ t.Alone n f := by
  have hrelease : (t.release f).1 = t.store.releasable t.held f := by
    simp only [release, Store.release]
    split_ifs with h <;> simp [h]
  rw [hrelease, Store.releasable, Bool.and_eq_true, decide_eq_true_eq, beq_iff_eq]
  by_cases hself : 0 < t.store.selfCaptures f
  · have hheld : f ∈ t.held := mem_held.mpr ⟨n, hn⟩
    have hlive := live_of_held hheld (Store.lt_of_selfCaptures hself)
    have hpos : 0 < t.held.count f := List.count_pos_iff.mpr hheld
    rw [alone_iff hlive, Store.referenceCount_eq (mem_inUse.mpr hlive)]
    simp only [← mem_inUse, ← count_held_eq_one hn, ← Store.count_erase_eq_zero]
    refine and_congr_right fun _ => ?_
    split_ifs with hparent
    · constructor
      · omega
      · exact fun h => absurd hparent h.2.1
    · constructor
      · intro h
        exact ⟨by omega, hparent, by omega⟩
      · rintro ⟨hone, -, hzero⟩
        omega
  · constructor
    · exact fun h => absurd h.1 hself
    · exact fun h => absurd (selfCaptures_pos.mpr h.captured) hself

end FrameTable

end Flowgraph
