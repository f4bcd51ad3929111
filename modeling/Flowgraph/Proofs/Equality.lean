import Mathlib
import Flowgraph.Value.Equality

/-!
# Equality is symmetric and transitive

Values are compared by content or by what they name. Only floats make this more than identity: a
float that is not a number differs from itself, and the two zeros are equal.
-/

namespace Flowgraph

namespace Value

variable {u v w : Value}

/-- What is equal to a float is a float. -/
lemma exists_float {x : Float} (h : (float x == w) = true) :
    ∃ y, w = float y ∧ (x == y) = true := by
  cases w with
  | float y => exact ⟨y, rfl, h⟩
  | _ => cases h

lemma eq_of_beq (hv : ∀ x, v ≠ float x) (h : (v == w) = true) : v = w :=
  (same_iff_eq hv).mp h

instance : PartialEquivBEq Value where
  symm {v w} h := by
    by_cases hv : ∃ x, v = float x
    · obtain ⟨x, rfl⟩ := hv
      obtain ⟨y, rfl, hxy⟩ := exists_float h
      exact (BEq.symm hxy : (y == x) = true)
    · have heq := eq_of_beq (fun x hx => hv ⟨x, hx⟩) h
      rw [← heq] at h ⊢
      exact h
  trans {u v w} huv hvw := by
    by_cases hu : ∃ x, u = float x
    · obtain ⟨x, rfl⟩ := hu
      obtain ⟨y, rfl, hxy⟩ := exists_float huv
      obtain ⟨z, rfl, hyz⟩ := exists_float hvw
      exact (BEq.trans hxy hyz : (x == z) = true)
    · rwa [eq_of_beq (fun x hx => hu ⟨x, hx⟩) huv]

end Value

end Flowgraph
