import Mathlib.Tactic.Common
import Flowgraph.Proofs.Assign.Reading

/-!
# Drilling into nested values

Drilling along a path takes one element after the other. A path can be cut anywhere, and how a step
fails does not depend on who asks, apart from the name of the operation that the fault quotes.
-/

namespace Flowgraph

/-! ### The same fault of another operation -/

/-- The fault as another operation raises it. -/
def Fault.under (op : String) : Fault → Fault
  | .typeMismatch _ expected found => .typeMismatch op expected found
  | .nilChannel _ => .nilChannel op
  | .nilDereference _ => .nilDereference op
  | fault => fault

/-- The stop as it comes about in another operation. -/
def Stop.under (op : String) : Stop → Stop
  | .fault f => .fault (f.under op)
  | e => e

lemma mapError_bind {α β ε ε' : Type} (g : ε → ε') (x : Except ε α) (next : α → Except ε β) :
    (x >>= next).mapError g = x.mapError g >>= fun a => (next a).mapError g := by
  cases x <;> rfl

lemma Value.asBlock_under (op op' : String) (v : Value) :
    v.asBlock op' = (v.asBlock op).mapError (Stop.under op') := by
  cases v <;> rfl

lemma checkIndex_under (op : String) (i : Int64) (length : Nat) :
    checkIndex i length = (checkIndex i length).mapError (Stop.under op) := by
  rw [checkIndex]
  split_ifs <;> rfl

namespace Look

variable {op op' : String} {v w : Value} {s : Store} {e : Stop} {path : List Nat} {i j : Nat}

lemma element_under (op : String) (b : BlockId) (i : Int64) (s : Store) :
    element b i s = (element b i s).mapError (Stop.under op) := by
  change (checkIndex i (s.block b).size >>= fun n => pure ((s.block b).getD n .nil)) =
    Except.mapError _ (checkIndex i (s.block b).size >>= fun n => pure ((s.block b).getD n .nil))
  rw [mapError_bind, ← checkIndex_under]
  rfl

/-! ### Paths that are cut -/

/-- Drilling along a path that is cut in two is drilling along the first part, and then along the
second part from where that leads to. -/
theorem follow_cut (op : String) (v : Value) (front rest : List Nat) :
    follow op v (front ++ rest) = follow op v front >>= fun w => follow op w rest := by
  induction front generalizing v with
  | nil => rw [List.nil_append, follow, pure_bind]
  | cons i front ih =>
    rw [List.cons_append, follow, follow]
    simp only [ih, bind_assoc]

/-- One index denotes an element. -/
lemma follow_one (op : String) (v : Value) (i : Nat) (s : Store) :
    follow op v [i] s = v.asBlock op >>= fun b => element b (saturate i) s := by
  change (v.asBlock op >>= fun b => element b (saturate i) s >>= pure) = _
  simp only [bind_pure]

/-- Drilling comes to the same for all operations, apart from their names. -/
theorem follow_under (op op' : String) (v : Value) (path : List Nat) (s : Store) :
    follow op' v path s = (follow op v path s).mapError (Stop.under op') := by
  induction path generalizing v with
  | nil => rfl
  | cons i path ih =>
    change (v.asBlock op' >>= fun b => element b (saturate i) s >>= fun w => follow op' w path s) =
      Except.mapError _
        (v.asBlock op >>= fun b => element b (saturate i) s >>= fun w => follow op w path s)
    simp only [mapError_bind, ← ih, ← element_under, ← Value.asBlock_under]

lemma follow_ok_under (h : follow op v path s = .ok w) (op' : String) :
    follow op' v path s = .ok w := by
  rw [follow_under op, h]
  rfl

lemma follow_error_under (h : follow op v path s = .error e) (op' : String) :
    follow op' v path s = .error (e.under op') := by
  rw [follow_under op, h]
  rfl

/-! ### The step that fails -/

/-- Drilling fails at a step: the indices before it lead somewhere, and from there on all that goes
further fails in the same way. -/
structure FailsAt (op : String) (v : Value) (path : List Nat) (j : Nat) (e : Stop) (s : Store) :
    Prop where
  lt : j < path.length
  before : ∃ c, follow op v (path.take j) s = .ok c
  after : ∀ k > j, follow op v (path.take k) s = .error e

/-- Drilling that fails does so at a step. -/
theorem exists_failsAt (h : follow op v path s = .error e) : ∃ j, FailsAt op v path j e s := by
  induction path generalizing v with
  | nil => cases h
  | cons i path ih =>
    rw [← List.singleton_append, follow_cut] at h
    cases hi : follow op v [i] s with
    | error e' =>
      have he : e' = e := by
        change (follow op v [i] s >>= fun w => follow op w path s) = _ at h
        rw [hi] at h
        exact Except.error.inj h
      subst he
      refine ⟨0, Nat.succ_pos _, ⟨v, rfl⟩, fun k hk => ?_⟩
      obtain ⟨k, rfl⟩ := Nat.exists_eq_add_of_lt hk
      rw [Nat.zero_add, List.take_succ_cons, ← List.singleton_append, follow_cut]
      change (follow op v [i] s >>= fun w => follow op w (path.take k) s) = _
      rw [hi]
      rfl
    | ok w =>
      have hstep : ∀ rest, follow op v (i :: rest) s = follow op w rest s := by
        intro rest
        rw [← List.singleton_append, follow_cut]
        exact bind_ok hi
      obtain ⟨j, hlt, ⟨c, hc⟩, hafter⟩ := ih ((bind_ok hi).symm.trans h)
      refine ⟨j + 1, Nat.succ_lt_succ hlt, ⟨c, (hstep _).trans hc⟩, fun k hk => ?_⟩
      obtain ⟨k, rfl⟩ := Nat.exists_eq_add_of_lt hk
      rw [show j + 1 + k + 1 = (j + k + 1) + 1 by omega, List.take_succ_cons, hstep]
      exact hafter _ (by omega)

lemma FailsAt.under (h : FailsAt op v path j e s) (op' : String) :
    FailsAt op' v path j (e.under op') s where
  lt := h.lt
  before := h.before.imp fun _ hc => follow_ok_under hc op'
  after k hk := follow_error_under (h.after k hk) op'

/-! ### Indexing -/

/-- Away from texts, indexing is one step of drilling. -/
lemma index_of_ne_text (hv : ∀ t, v ≠ .str t) (i : Nat) (s : Store) :
    index v (saturate i) s = follow "index" v [i] s := by
  rw [follow_one]
  cases v with
  | str t => exact absurd rfl (hv t)
  | _ => rfl

end Look

end Flowgraph
