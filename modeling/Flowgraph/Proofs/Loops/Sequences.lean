import Mathlib.Tactic.IntervalCases
import Flowgraph.Proofs.Loops.Visits

/-!
# Loops over slices and counts

Such a loop keeps the number of its next element in its position slot. As long as nobody else
writes to that slot, the visits go through all elements in order, come to an end once, and begin
again. To clear the slot, or to set it to zero, makes the next visit begin again too.
-/

namespace Flowgraph

/-! ### Numbers of elements -/

lemma toInt_saturate {k : Nat} (h : k < 2 ^ 63) : (saturate k).toInt = k := by
  have hmin : min k (Nat.pow 2 63 - 1) = k := Nat.min_eq_left (Nat.le_sub_one_of_lt h)
  rw [saturate, hmin, Int64.toInt_ofNat_of_lt (by exact h)]

lemma sequencePosition_ofNat {k : Nat} (h : k < 2 ^ 63) :
    sequencePosition (.ofNat k) = .ok k := by
  have hk : (saturate k).toInt.toNat = k := by rw [toInt_saturate h, Int.toNat_natCast]
  exact congrArg Except.ok hk

/-- A slice or a count has so many elements. No slice is longer than what memory can hold. -/
inductive Value.Numbers (s : Store) : Value → Nat → Prop
  | slice {b : BlockId} (held : (s.block b).size ≤ maxValues) :
    Numbers s (.slice b) (s.block b).size
  | int (i : Int64) : Numbers s (.int i) i.toInt.toNat

/-- The element of that number: what the slice holds there, and nothing for a count. -/
def Value.elementAt (s : Store) (v : Value) (i : Nat) : Value :=
  match v with
  | .slice b => (s.target? b i).getD .nil
  | _ => .nil

section Numbers

variable {s : Store} {v : Value} {n i : Nat}

lemma Value.Numbers.lt (h : v.Numbers s n) : n < 2 ^ 63 := by
  cases h with
  | slice held =>
    have hmax : maxValues < 2 ^ 63 := by decide
    exact Nat.lt_of_le_of_lt held hmax
  | int i =>
    have hlt := i.toInt_lt
    omega

lemma iterate_of_lt (h : v.Numbers s n) (hi : i < n) :
    Look.iterate v i s = .ok (.visit (.ofNat i) (v.elementAt s i) (.ofNat (i + 1))) := by
  cases h with
  | @slice b =>
    have htarget : s.target? b i = some _ := Array.getElem?_eq_getElem hi
    refine (Look.bind_ok rfl).trans ?_
    rw [Value.elementAt, htarget]
    rfl
  | int j =>
    rw [Look.iterate, if_pos (by omega)]
    rfl

lemma iterate_of_ge (h : v.Numbers s n) (hi : n ≤ i) : Look.iterate v i s = .ok .finished := by
  cases h with
  | @slice b =>
    have htarget : s.target? b i = none := Array.getElem?_eq_none hi
    refine (Look.bind_ok rfl).trans ?_
    rw [htarget]
    rfl
  | int j =>
    rw [Look.iterate, if_neg (by omega)]
    rfl

end Numbers

namespace Loop

variable {L : Loop} {p : Program} {s : Store} {C : Course} {v : Value} {n i k N t t₀ : Nat}
  {w : Value}

/-- What a visit finds in a slice or a count is what is there at the position. -/
lemma iteration_eq (h : v.Numbers s n) (hw : sequencePosition w = .ok i) :
    iteration v w s = match Look.iterate v i s with
      | .ok found => .ok found s
      | .error e => .error e s := by
  have hbind : ((do Look.iterate v (← sequencePosition w) : Op Iteration)) s =
      match Look.iterate v i s with
        | .ok found => .ok found s
        | .error e => .error e s := by
    rw [Op.except_bind_apply, hw]
    dsimp only
    change Op.read (Look.iterate v i) s = _
    rw [Op.read]
    cases Look.iterate v i s <;> rfl
  cases h <;> exact hbind

/-- The position with which a loop begins: nothing, or a number that is not positive. -/
def Begins (L : Loop) (s : Store) : Prop :=
  L.position s = .nil ∨ ∃ i : Int64, L.position s = .int i ∧ i.toInt ≤ 0

lemma Begins.sequencePosition (h : L.Begins s) : sequencePosition (L.position s) = .ok 0 := by
  rcases h with h | ⟨i, h, hi⟩
  · rw [h]
    rfl
  · rw [h]
    exact congrArg Except.ok (Int.toNat_of_nonpos hi)

/-! ### Which element is visited -/

/-- The number of the element that the visits come to, the end being counted as one more element,
when the position is set back before some visits. -/
def number (n : Nat) (back : Nat → Bool) : Nat → Nat
  | 0 => 0
  | k + 1 => if back k then 0 else (number n back k + 1) % (n + 1)

lemma number_le (n : Nat) (back : Nat → Bool) (k : Nat) : number n back k ≤ n := by
  cases k with
  | zero => exact Nat.zero_le n
  | succ k =>
    rw [number]
    split_ifs
    · exact Nat.zero_le n
    · exact Nat.le_of_lt_succ (Nat.mod_lt _ (Nat.succ_pos n))

/-- As long as the position is not set back, the elements follow one another. -/
lemma number_add {back : Nat → Bool} (hk : number n back k = 0) :
    ∀ j ≤ n, (∀ i < j, back (k + i) = false) → number n back (k + j) = j
  | 0, _, _ => hk
  | j + 1, hj, hback => by
    have hprev := number_add hk j (Nat.le_of_succ_le hj) fun i hi => hback i (Nat.lt_succ_of_lt hi)
    rw [← Nat.add_assoc, number, hback j (Nat.lt_succ_self j), hprev, if_neg (by decide),
      Nat.mod_eq_of_lt (Nat.lt_succ_of_le hj)]

/-- The visits number 0 to `N` of a loop over a slice or a count, which is the same each time. In
between, nobody writes to the position slot, or it is set back; and after a visit that has found an
element the chain comes back to the node. -/
structure Passes (L : Loop) (C : Course) (t₀ : Nat) (v : Value) (n : Nat) (back : Nat → Bool)
    (N : Nat) : Prop where
  first : L.VisitedAt C t₀
  begins : L.Begins (C.machine t₀).store
  ready : ∀ k ≤ N, ∀ t, L.Nth C t₀ k t →
    L.Ready (C.machine t).program (C.machine t).store v ∧ v.Numbers (C.machine t).store n
  spared : ∀ k < N, ∀ t t', L.Nth C t₀ k t → L.Next C t t' →
    if back k then L.Begins (C.machine t').store
    else L.position (C.machine t').store = L.position (C.machine (t + 1)).store
  returns : ∀ k < N, ∀ t, L.Nth C t₀ k t →
    (C.machine (t + 1)).store.slot? L.frame L.slot = some (.bool true) →
    ∃ t' > t, L.VisitedAt C t'

/-- What the visits number 0 to `N` find. -/
structure Goes (L : Loop) (C : Course) (t₀ : Nat) (v : Value) (n : Nat) (back : Nat → Bool)
    (N : Nat) : Prop where
  /-- A visit whose turn is an element stores its number and what it is at that moment. -/
  yields : ∀ k ≤ N, ∀ t i, L.Nth C t₀ k t → number n back k = i → i < n →
    L.Yields (C.machine t).program (C.machine t).store (C.machine (t + 1)).store
      (.ofNat i) (v.elementAt (C.machine t).store i) (.ofNat (i + 1)) ∧
    L.Leaves (C.machine t) (C.machine (t + 1)) true
  /-- A visit whose turn is the end finishes the loop. -/
  finishes : ∀ k ≤ N, ∀ t, L.Nth C t₀ k t → number n back k = n →
    L.Finishes (C.machine t).store (C.machine (t + 1)).store ∧
    L.Leaves (C.machine t) (C.machine (t + 1)) false
  /-- Whenever the loop begins and the position is not set back, all elements are visited, one after
  the other, and then the end. -/
  whole : ∀ k, k + n ≤ N → ∀ t, L.Nth C t₀ k t → number n back k = 0 →
    (∀ j < n, back (k + j) = false) →
    ∃ u : Nat → Nat, u 0 = t ∧ ∀ j ≤ n, number n back (k + j) = j ∧ L.Nth C t₀ (k + j) (u j) ∧
      (j < n → L.Next C (u j) (u (j + 1)))

variable {back : Nat → Bool}

/-- What a visit does at a position. -/
lemma visit_cases (hvisited : L.VisitedAt C t)
    (hready : L.Ready (C.machine t).program (C.machine t).store v)
    (hv : v.Numbers (C.machine t).store n)
    (hi : sequencePosition (L.position (C.machine t).store) = .ok i) :
    (i < n → L.Yields (C.machine t).program (C.machine t).store (C.machine (t + 1)).store
      (.ofNat i) (v.elementAt (C.machine t).store i) (.ofNat (i + 1)) ∧
      L.Leaves (C.machine t) (C.machine (t + 1)) true) ∧
    (n ≤ i → L.Finishes (C.machine t).store (C.machine (t + 1)).store ∧
      L.Leaves (C.machine t) (C.machine (t + 1)) false) := by
  refine ⟨fun hlt => ?_, fun hge => ?_⟩
  · exact hvisited.yields hready ((iteration_eq hv hi).trans (by rw [iterate_of_lt hv hlt]))
  · exact hvisited.finishes hready ((iteration_eq hv hi).trans (by rw [iterate_of_ge hv hge]))

/-- Each visit finds the position at the number of its element. -/
lemma Passes.position (h : L.Passes C t₀ v n back N) (ht : L.Nth C t₀ k t) (hk : k ≤ N) :
    sequencePosition (L.position (C.machine t).store) = .ok (number n back k) := by
  induction ht with
  | zero => exact h.begins.sequencePosition
  | @succ k t t' ht hnext ih =>
    have hi := ih (Nat.le_of_succ_le hk)
    obtain ⟨hready, hv⟩ := h.ready k (Nat.le_of_succ_le hk) t ht
    obtain ⟨hyields, hfinishes⟩ := visit_cases ht.visitedAt hready hv hi
    have hspared := h.spared k hk t t' ht hnext
    rw [number]
    split_ifs at hspared ⊢
    · exact hspared.sequencePosition
    · rw [hspared]
      rcases Nat.lt_or_eq_of_le (number_le n back k) with hlt | he
      · have hbound := hv.lt
        rw [(hyields hlt).1.position, sequencePosition_ofNat (by omega),
          Nat.mod_eq_of_lt (Nat.succ_lt_succ hlt)]
      · rw [(hfinishes (Nat.le_of_eq he.symm)).1.position, he, Nat.mod_self]
        rfl

lemma Passes.cases (h : L.Passes C t₀ v n back N) (ht : L.Nth C t₀ k t) (hk : k ≤ N) :
    (number n back k < n →
      L.Yields (C.machine t).program (C.machine t).store (C.machine (t + 1)).store
        (.ofNat (number n back k)) (v.elementAt (C.machine t).store (number n back k))
        (.ofNat (number n back k + 1)) ∧
      L.Leaves (C.machine t) (C.machine (t + 1)) true) ∧
    (n ≤ number n back k → L.Finishes (C.machine t).store (C.machine (t + 1)).store ∧
      L.Leaves (C.machine t) (C.machine (t + 1)) false) := by
  obtain ⟨hready, hv⟩ := h.ready k hk t ht
  exact visit_cases ht.visitedAt hready hv (h.position ht hk)

/-- After a visit that has found an element there is another one. -/
lemma Passes.exists_next (h : L.Passes C t₀ v n back N) (ht : L.Nth C t₀ k t) (hk : k < N)
    (hlt : number n back k < n) : ∃ t', L.Next C t t' := by
  have hleaves := ((h.cases ht (Nat.le_of_lt hk)).1 hlt).2
  obtain ⟨t', hgt, hvisited⟩ := h.returns k hk t ht hleaves.told
  exact Loop.exists_next hgt hvisited

/-- However often a loop over a slice or a count is entered, and whatever its body does as long as
it does not write to the position slot: each time, the visits go through all elements in order, with
what they are at that moment, and then the loop comes to its end once, with the destinations left
alone and the position cleared. To set the position back makes the next visit begin again. -/
theorem goes_through (h : L.Passes C t₀ v n back N) : L.Goes C t₀ v n back N := by
  refine ⟨?yields, ?finishes, ?whole⟩
  case yields =>
    rintro k hk t i ht rfl hi
    exact (h.cases ht hk).1 hi
  case finishes =>
    intro k hk t ht hn
    exact (h.cases ht hk).2 (Nat.le_of_eq hn.symm)
  case whole =>
    intro k hk t ht hzero hback
    have hnumber : ∀ j ≤ n, number n back (k + j) = j := fun j hj =>
      number_add hzero j hj fun i hi => hback i (Nat.lt_of_lt_of_le hi hj)
    have hvisit : ∀ j, ∃ u, j ≤ n → L.Nth C t₀ (k + j) u := by
      intro j
      induction j with
      | zero => exact ⟨t, fun _ => ht⟩
      | succ j ih =>
        obtain ⟨u, hu⟩ := ih
        by_cases hj : j + 1 ≤ n
        · have hlt : number n back (k + j) < n := by
            rw [hnumber j (Nat.le_of_succ_le hj)]
            exact hj
          obtain ⟨u', hu'⟩ := h.exists_next (hu (Nat.le_of_succ_le hj)) (by omega) hlt
          exact ⟨u', fun _ => (hu (Nat.le_of_succ_le hj)).succ hu'⟩
        · exact ⟨0, fun hle => absurd hle hj⟩
    choose u hu using hvisit
    refine ⟨u, (hu 0 (Nat.zero_le n)).unique ht, fun j hj => ⟨hnumber j hj, hu j hj, fun hlt => ?_⟩⟩
    cases hu (j + 1) hlt with
    | succ hprev hnext => exact hprev.unique (hu j hj) ▸ hnext

/-- A loop that counts to two. Its body counts the rounds in another slot. -/
def counting : Program where
  graph := {
    globals := 4
    nodes := #[
      { kind := .range, children := [⟨1⟩, ⟨2⟩, ⟨3⟩], slot := some 0, next := some ⟨4⟩,
        otherwise := some ⟨6⟩ },
      { kind := .ident, slot := some 2 },
      { kind := .ident },
      { kind := .basicLit, payload := some (.literal (.int 2)) },
      { kind := .inc, children := [⟨5⟩], slot := some 3, next := some ⟨0⟩ },
      { kind := .ident, slot := some 3 },
      { kind := .nop }] }
  constants := #[none, none, none, some (.int 2), none, none, none]
  natives := .empty
  config := {}

/-- The loop, as the first chain comes to it. -/
def countingLoop : Loop :=
  ⟨⟨0⟩, globalFrame, ⟨0⟩, 0, ⟨1⟩, ⟨2⟩, ⟨3⟩, some ⟨4⟩, ⟨6⟩⟩

/-- The chain moves on and on, in a frame whose slots are nil but for the count. -/
def countingCourse : Course :=
  .ofMoves (((Machine.ofProgram counting true).mapStore fun s =>
    s.setSlot globalFrame 3 (.int 0)).addChain (.atNode ⟨0⟩)).2 fun _ => .run ⟨0⟩

lemma next_counting : countingLoop.Next countingCourse 0 4 ∧
    countingLoop.Next countingCourse 4 8 := by
  constructor
  · refine ⟨by decide, ⟨⟨_, _, _, _, rfl, rfl, rfl, rfl⟩, rfl⟩, fun u hu hu' => ?_⟩
    rintro ⟨⟨c, a, depth, rest, hc, hs, hw, -⟩, -⟩
    interval_cases u <;> cases hc
    all_goals cases hs
    all_goals cases hw
  · refine ⟨by decide, ⟨⟨_, _, _, _, rfl, rfl, rfl, rfl⟩, rfl⟩, fun u hu hu' => ?_⟩
    rintro ⟨⟨c, a, depth, rest, hc, hs, hw, -⟩, -⟩
    interval_cases u <;> cases hc
    all_goals cases hs
    all_goals cases hw

lemma passes_counting :
    countingLoop.Passes countingCourse 0 (.int 2) 2 (fun _ => false) 2 := by
  have hfirst : countingLoop.VisitedAt countingCourse 0 := ⟨⟨_, _, _, _, rfl, rfl, rfl, rfl⟩, rfl⟩
  have hone := (Nth.zero hfirst).succ next_counting.1
  have htwo := hone.succ next_counting.2
  have hnth : ∀ k ≤ 2, ∀ t, countingLoop.Nth countingCourse 0 k t → t = 4 * k := by
    intro k hk t ht
    interval_cases k
    · exact ht.unique (.zero hfirst)
    · exact ht.unique hone
    · exact ht.unique htwo
  have hready : ∀ k ≤ 2, countingLoop.Ready (countingCourse.machine (4 * k)).program
      (countingCourse.machine (4 * k)).store (.int 2) := by
    intro k hk
    interval_cases k
    all_goals
      exact ⟨⟨_, rfl, rfl, rfl, rfl, rfl, rfl, rfl, rfl, rfl⟩, (by decide),
        ⟨_, .slot rfl rfl rfl (by decide)⟩, ⟨_, .blank rfl rfl⟩, rfl⟩
  have hposition : countingLoop.position (countingCourse.machine 1).store = .ofNat 1 ∧
      countingLoop.position (countingCourse.machine 4).store = .ofNat 1 ∧
      countingLoop.position (countingCourse.machine 5).store = .ofNat 2 ∧
      countingLoop.position (countingCourse.machine 8).store = .ofNat 2 := ⟨rfl, rfl, rfl, rfl⟩
  refine ⟨hfirst, .inl rfl, fun k hk t ht => ?_, fun k hk t t' ht hnext => ?_,
    fun k hk t ht _ => ?_⟩
  · cases hnth k hk t ht
    exact ⟨hready k hk, .int 2⟩
  · cases hnth k (Nat.le_of_lt hk) t ht
    cases hnth (k + 1) hk t' (ht.succ hnext)
    rw [if_neg Bool.false_ne_true]
    interval_cases k
    · exact hposition.2.1.trans hposition.1.symm
    · exact hposition.2.2.2.trans hposition.2.2.1.symm
  · cases hnth k (Nat.le_of_lt hk) t ht
    interval_cases k
    · exact ⟨4, by decide, next_counting.1.visited⟩
    · exact ⟨8, by decide, next_counting.2.visited⟩

theorem goes_through_counting :
    countingLoop.Yields counting (countingCourse.machine 0).store (countingCourse.machine 1).store
      (.ofNat 0) .nil (.ofNat 1) ∧
    countingLoop.Yields counting (countingCourse.machine 4).store (countingCourse.machine 5).store
      (.ofNat 1) .nil (.ofNat 2) ∧
    countingLoop.Finishes (countingCourse.machine 8).store (countingCourse.machine 9).store := by
  have hgoes := goes_through passes_counting
  have hfirst := Nth.zero passes_counting.first
  have hone := hfirst.succ next_counting.1
  have htwo := hone.succ next_counting.2
  refine ⟨?_, ?_, ?_⟩
  · exact (hgoes.yields 0 (by decide) 0 0 hfirst rfl (by decide)).1
  · exact (hgoes.yields 1 (by decide) 4 1 hone rfl (by decide)).1
  · exact (hgoes.finishes 2 (by decide) 8 htwo rfl).1

end Loop

end Flowgraph
