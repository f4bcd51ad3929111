import Mathlib.Data.List.Induction
import Flowgraph.Proofs.Hands.Moves

/-!
# Keys that are found

A dictionary finds a key by equality. Every value is equal to itself but a float that is not a
number, and such a float is equal to nothing. So an entry is found under its own key unless that key
is not a number, and then it is never found.
-/

namespace Flowgraph

/-! ### Values that differ from themselves -/

open Float.Model in
lemma unpacked_compare_self (u : UnpackedFloat) :
    u.compare u = if u.isNaN then none else some .eq := by
  cases u with
  | notANumber => rfl
  | infinity s => cases s <;> rfl
  | zero s => rfl
  | finite s m e h =>
    have hself : (compare e e).then (compare m m) = .eq := by
      rw [Std.compare_self, Std.compare_self]
      rfl
    cases s with
    | positive =>
      show some ((compare e e).then (compare m m)) = some .eq
      rw [hself]
    | negative =>
      show some ((compare e e).then (compare m m)).swap = some .eq
      rw [hself]
      rfl

open Float.Model in
lemma unpacked_compare_isNaN (u : UnpackedFloat) {w : UnpackedFloat} (h : w.isNaN = true) :
    u.compare w = none := by
  cases w with
  | notANumber => cases u <;> rfl
  | _ => cases h

lemma float_beq_self (x : Float) : (x == x) = !x.isNaN := by
  show (x.toModel.unpack.compare x.toModel.unpack == some .eq) = !x.toModel.unpack.isNaN
  rw [unpacked_compare_self]
  cases x.toModel.unpack.isNaN <;> rfl

lemma float_beq_isNaN (y : Float) {x : Float} (h : x.isNaN = true) : (y == x) = false := by
  show (y.toModel.unpack.compare x.toModel.unpack == some .eq) = false
  rw [unpacked_compare_isNaN _ h]
  rfl

namespace Value

variable {k v w : Value}

/-- A float that is not a number. -/
def IsNaN (v : Value) : Prop := ∃ x, v = float x ∧ x.isNaN = true

lemma beq_self_iff (v : Value) : (v == v) = true ↔ ¬v.IsNaN := by
  rw [beq_eq_same]
  cases v with
  | float x => simp [same, float_beq_self, IsNaN]
  | _ => simp [same, IsNaN]

/-- Nothing is equal to what is not equal to itself. -/
lemma beq_of_ne_self (h : (k == k) = false) (v : Value) : (v == k) = false := by
  have hnan : k.IsNaN := by
    by_contra hnan
    rw [(beq_self_iff k).mpr hnan] at h
    cases h
  obtain ⟨x, rfl, hx⟩ := hnan
  rw [beq_eq_same]
  cases v with
  | float y => exact float_beq_isNaN y hx
  | _ => rfl

end Value

namespace Dict

variable {D : Dict} {e : Value × Value} {k : Value}

/-! ### Lookups -/

/-- An entry is found under its own key. -/
lemma get?_of_mem (h : D.Proper) (he : e ∈ D.entries) (hself : (e.1 == e.1) = true) :
    D.get? e.1 = some e.2 := by
  obtain ⟨es⟩ := D
  simp only [get?, Proper] at h he ⊢
  induction es with
  | nil => cases he
  | cons a es ih =>
    obtain ⟨ha, hes⟩ := List.pairwise_cons.mp h
    rcases List.mem_cons.mp he with rfl | he
    · simp [hself]
    · simpa [ha e he] using ih hes he

/-- A key that is not equal to itself is never found. -/
lemma get?_of_ne_self (h : (k == k) = false) : D.get? k = none := by
  have hnone : D.entries.find? (fun e => e.1 == k) = none := by
    rw [List.find?_eq_none]
    intro e _
    simp [Value.beq_of_ne_self h]
  rw [get?, hnone, Option.map_none]

/-- What is found under a key of the dictionary is the entry of that key. -/
lemma mem_of_get? (h : D.Proper) {v : Value} (hk : k ∈ D.keys) (hv : D.get? k = some v) :
    (k == k) = true ∧ (k, v) ∈ D.entries := by
  have hself : (k == k) = true := by
    by_contra hne
    rw [get?_of_ne_self (by simpa using hne)] at hv
    cases hv
  obtain ⟨e, he, rfl⟩ := List.mem_map.mp (List.mem_reverse.mp hk)
  rw [get?_of_mem h he hself] at hv
  cases hv
  exact ⟨hself, he⟩

/-- No two entries whose keys are equal to themselves are the same. -/
lemma Proper.nodup_filter (h : D.Proper) : (D.entries.filter fun e => e.1 == e.1).Nodup := by
  refine (List.Pairwise.filter _ h).imp_of_mem ?_
  rintro a b ha - hab rfl
  rw [(List.mem_filter.mp ha).2] at hab
  cases hab

/-! ### Dictionaries as they are built -/

/-- Dictionaries are built by insertions and deletions. -/
inductive Built : Dict → Prop
  | empty : Built {}
  | insert {D : Dict} (h : Built D) (k v : Value) : Built (D.insert k v)
  | erase {D : Dict} (h : Built D) (k : Value) : Built (D.erase k)

lemma Built.proper (h : D.Built) : D.Proper := by
  induction h with
  | empty => exact proper_empty
  | insert _ k v ih => exact ih.insert k v
  | erase _ k ih => exact ih.erase k

/-- A key that is not there is added behind all others. -/
lemma insert_of_absent {es : List (Value × Value)} (h : ∀ a ∈ es, (a.1 == e.1) = false) :
    (⟨es⟩ : Dict).insert e.1 e.2 = ⟨es ++ [e]⟩ := by
  induction es with
  | nil => rfl
  | cons a es ih =>
    have hrest := ih fun b hb => h b (List.mem_cons_of_mem _ hb)
    simp only [insert, Dict.mk.injEq] at hrest ⊢
    rw [insertEntry, h a List.mem_cons_self, if_neg (by decide), hrest, List.cons_append]

/-- Without equal keys, a dictionary can be built entry by entry. -/
lemma Proper.built (h : D.Proper) : D.Built := by
  obtain ⟨es⟩ := D
  simp only [Proper] at h
  induction es using List.reverseRecOn with
  | nil => exact .empty
  | append_singleton es e ih =>
    obtain ⟨hes, -, hlast⟩ := List.pairwise_append.mp h
    rw [← insert_of_absent fun a ha => hlast a ha e (List.mem_singleton.mpr rfl)]
    exact (ih hes).insert e.1 e.2

end Dict

/-- Literals, assignments to entries and all else that programs do leave dictionaries that are built
by insertions and deletions. -/
theorem Machine.built_step {m : Machine} (hfit : m.Fits) (h : ∀ d, (m.store.dict d).Built)
    (mv : Move) (d : DictId) : ((m.step mv).store.dict d).Built :=
  (proper_step hfit (fun d => (h d).proper) mv d).built

end Flowgraph
