import Flowgraph.Value.Basic

/-!
# Equality of values

Scalars are compared by content, handles by what they name, and values of different families
are never equal. A float that is not a number differs from itself, and the two zeros are
equal, so this equality is coarser than identity on zeros and not reflexive on such floats.
-/

namespace Flowgraph

namespace Value

/-- Equality as programs see it. -/
def same : Value → Value → Bool
  | nil, nil => true
  | bool a, bool b => a == b
  | int a, int b => a == b
  | float a, float b => a == b
  | str a, str b => a == b
  | slice a, slice b => a == b
  | struct a, struct b => a == b
  | pointer a i, pointer b j => a == b && i == j
  | map a, map b => a == b
  | chan a, chan b => a == b
  | func d e, func d' e' => d == d' && e == e'
  | native a, native b => a == b
  | _, _ => false

instance : BEq Value := ⟨same⟩

theorem beq_eq_same (v w : Value) : (v == w) = same v w := rfl

/-- The place of a family in the list of families. -/
def family : Value → Nat
  | nil => 0 | bool _ => 1 | int _ => 2 | float _ => 3 | str _ => 4 | slice _ => 5
  | struct _ => 6 | pointer _ _ => 7 | map _ => 8 | chan _ => 9 | func _ _ => 10 | native _ => 11

/-- Equal values are of one family. -/
theorem family_eq_of_same {v w : Value} (h : v.same w = true) : v.family = w.family := by
  cases v <;> cases w <;> simp_all [same, family]

/-- Away from floats, equality is identity. -/
theorem same_iff_eq {v w : Value} (hv : ∀ x, v ≠ float x) : v.same w = true ↔ v = w := by
  cases v <;> cases w <;> simp_all [same]

end Value

end Flowgraph
