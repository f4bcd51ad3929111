import Mathlib.Data.Prod.Basic
import Mathlib.Tactic.Common
import Flowgraph.Proofs.Zeros.Parts

/-!
# Elements that are written

The elements of a block are written one after the other. What an element holds in the end is what
was written to it last, and an element that nothing was written to holds what it held before.
-/

namespace Flowgraph

variable {ws ws' before after : List (Nat × Value)} {w w' : Nat × Value} {es : Array Value}
  {i : Nat} {v : Value}

/-! ### What is written last -/

/-- The value that is written to an element last, if any is. -/
def lastFor : List (Nat × Value) → Nat → Option Value
  | [], _ => none
  | w :: ws, i => (lastFor ws i).or (if w.1 = i then some w.2 else none)

lemma lastFor_append (ws ws' : List (Nat × Value)) (i : Nat) :
    lastFor (ws ++ ws') i = (lastFor ws' i).or (lastFor ws i) := by
  induction ws with
  | nil => simp [lastFor]
  | cons w ws ih => rw [List.cons_append, lastFor, lastFor, ih, Option.or_assoc]

lemma lastFor_eq_none : lastFor ws i = none ↔ ∀ w ∈ ws, w.1 ≠ i := by
  induction ws with
  | nil => simp [lastFor]
  | cons w ws ih => simp [lastFor, ih, and_comm]

/-- Where no element is written twice, each holds what is written to it. -/
lemma lastFor_eq_some_iff (hone : (ws.map Prod.fst).Nodup) :
    lastFor ws i = some v ↔ (i, v) ∈ ws := by
  induction ws with
  | nil => simp [lastFor]
  | cons w ws ih =>
    obtain ⟨hnot, hone⟩ := List.nodup_cons.mp hone
    rw [lastFor, List.mem_cons]
    by_cases hi : w.1 = i
    · have hnone : ∀ x ∈ ws, x.1 ≠ i := fun x hx he =>
        hnot (he.trans hi.symm ▸ List.mem_map_of_mem hx)
      rw [lastFor_eq_none.mpr hnone, if_pos hi, Option.none_or, Option.some.injEq]
      constructor
      · rintro rfl
        exact .inl (Prod.ext hi.symm rfl)
      · rintro (h | h)
        · exact congrArg Prod.snd h.symm
        · exact absurd rfl (hnone _ h)
    · rw [if_neg hi, Option.or_none, ih hone]
      constructor
      · exact .inr
      · rintro (h | h)
        · exact absurd (congrArg Prod.fst h.symm) hi
        · exact h

/-- So the order in which they are written does not matter. -/
lemma lastFor_perm (hone : (ws.map Prod.fst).Nodup) (h : ws.Perm ws') :
    lastFor ws = lastFor ws' := by
  have hone' : (ws'.map Prod.fst).Nodup := (h.map Prod.fst).nodup_iff.mp hone
  refine funext fun i => Option.ext fun v => ?_
  rw [lastFor_eq_some_iff hone, lastFor_eq_some_iff hone', h.mem_iff]

/-- Writes to two different elements can change places, if neither is written to in between. -/
lemma lastFor_swap {between : List (Nat × Value)} (hne : w.1 ≠ w'.1)
    (hbetween : ∀ x ∈ between, x.1 ≠ w.1 ∧ x.1 ≠ w'.1) :
    lastFor (before ++ w :: between ++ w' :: after) =
      lastFor (before ++ w' :: between ++ w :: after) := by
  refine funext fun i => ?_
  simp only [lastFor_append, lastFor]
  by_cases hw : w.1 = i
  · have hnone : lastFor between i = none :=
      lastFor_eq_none.mpr fun x hx he => (hbetween x hx).1 (he.trans hw.symm)
    simp [hnone, hw, show w'.1 ≠ i from fun he => hne (hw.trans he.symm)]
  · by_cases hw' : w'.1 = i
    · have hnone : lastFor between i = none :=
        lastFor_eq_none.mpr fun x hx he => (hbetween x hx).2 (he.trans hw'.symm)
      simp [hnone, hw, hw']
    · simp [hw, hw']

/-- Values with the numbers of their places. -/
def placed (vs : List Value) : List (Nat × Value) := vs.zipIdx.map Prod.swap

@[simp] lemma length_placed (vs : List Value) : (placed vs).length = vs.length := by
  simp [placed]

lemma nodup_placed (vs : List Value) : ((placed vs).map Prod.fst).Nodup := by
  have hfst : (placed vs).map Prod.fst = List.range' 0 vs.length := by
    rw [placed, List.map_map, ← List.zipIdx_map_snd 0 vs]
    rfl
  rw [hfst]
  exact List.nodup_range'

lemma lastFor_placed (vs : List Value) : lastFor (placed vs) = fun i => vs[i]? := by
  refine funext fun i => Option.ext fun v => ?_
  have hmem : (i, v) ∈ placed vs ↔ (v, i) ∈ vs.zipIdx :=
    List.mem_map_of_injective (a := (v, i)) Prod.swap_injective
  rw [lastFor_eq_some_iff (nodup_placed vs), hmem, List.mk_mem_zipIdx_iff_getElem?]

/-! ### Writing -/

/-- Write to elements, from left to right. -/
def overwrite (es : Array Value) (ws : List (Nat × Value)) : Array Value :=
  ws.foldl (fun es w => es.setIfInBounds w.1 w.2) es

@[simp] lemma size_overwrite : (overwrite es ws).size = es.size := by
  induction ws generalizing es with
  | nil => rfl
  | cons w ws ih => exact ih.trans Array.size_setIfInBounds

/-- An element holds what was written to it last, or else what it held before. -/
lemma getElem?_overwrite (es : Array Value) (ws : List (Nat × Value)) (i : Nat) :
    (overwrite es ws)[i]? = es[i]?.map fun v => (lastFor ws i).getD v := by
  induction ws generalizing es with
  | nil => simp [overwrite, lastFor]
  | cons w ws ih =>
    rw [overwrite, List.foldl_cons, ← overwrite, ih, Array.getElem?_setIfInBounds, lastFor]
    by_cases hw : w.1 = i
    · subst hw
      rw [if_pos rfl, if_pos rfl]
      split_ifs with hlt
      · rw [Array.getElem?_eq_getElem hlt]
        cases lastFor ws w.1 <;> rfl
      · rw [Array.getElem?_eq_none (Nat.le_of_not_lt hlt)]
        rfl
    · rw [if_neg hw, if_neg hw, Option.or_none]

/-- What matters is only what is written last. -/
lemma overwrite_congr (h : lastFor ws = lastFor ws') : overwrite es ws = overwrite es ws' := by
  refine Array.ext_getElem? fun i => ?_
  rw [getElem?_overwrite, getElem?_overwrite, h]

namespace Store

variable {s t : Store} {b c : BlockId}

/-- Write to elements of a block, from left to right. -/
def setElements (s : Store) (b : BlockId) (ws : List (Nat × Value)) : Store :=
  ws.foldl (fun s w => s.setElement b w.1 w.2) s

@[simp] lemma setElements_nil (s : Store) (b : BlockId) : s.setElements b [] = s := rfl

@[simp] lemma setElements_cons (s : Store) (b : BlockId) (w : Nat × Value)
    (ws : List (Nat × Value)) :
    s.setElements b (w :: ws) = (s.setElement b w.1 w.2).setElements b ws := rfl

lemma setElements_eq (s : Store) (b : BlockId) (ws : List (Nat × Value)) :
    s.setElements b ws =
      { s with blocks := s.blocks.modify b.index fun es => overwrite es ws } := by
  induction ws generalizing s with
  | nil =>
    refine congrArg (fun blocks => { s with blocks := blocks }) (Array.ext_getElem? fun k => ?_)
    rw [Array.getElem?_modify]
    split_ifs
    · cases s.blocks[k]? <;> rfl
    · rfl
  | cons w ws ih =>
    rw [setElements_cons, ih]
    refine congrArg (fun blocks => { s with blocks := blocks }) (Array.ext_getElem? fun k => ?_)
    simp only [setElement, Array.getElem?_modify]
    split_ifs
    · rw [Option.map_map]
      rfl
    · rfl

lemma setElements_congr (h : lastFor ws = lastFor ws') :
    s.setElements b ws = s.setElements b ws' := by
  simp only [setElements_eq, overwrite_congr h]

lemma block_setElements (s : Store) (b : BlockId) (ws : List (Nat × Value)) (c : BlockId) :
    (s.setElements b ws).block c = if c = b then overwrite (s.block c) ws else s.block c := by
  induction ws generalizing s with
  | nil => split_ifs <;> rfl
  | cons w ws ih =>
    rw [setElements_cons, ih, block_setElement]
    split_ifs <;> rfl

/-- Nothing is overwritten but these elements of the block. -/
lemma rewritten_setElements (s : Store) (b : BlockId) (ws : List (Nat × Value)) :
    s.Rewritten (fun c i => c = b ∧ i ∈ ws.map Prod.fst) (s.setElements b ws) := by
  induction ws generalizing s with
  | nil => exact .refl
  | cons w ws ih =>
    have hfirst : s.Rewritten (fun c i => c = b ∧ i ∈ (w :: ws).map Prod.fst)
        (s.setElement b w.1 w.2) := .write .refl ⟨rfl, List.mem_cons_self⟩ _
    exact hfirst.trans ((ih _).mono fun c i h => ⟨h.1, List.mem_cons_of_mem _ h.2⟩)

end Store

end Flowgraph
