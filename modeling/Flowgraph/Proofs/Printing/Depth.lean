import Mathlib.Tactic.Common
import Mathlib.Data.List.Chain
import Mathlib.Data.List.Perm.Subperm
import Mathlib.Logic.Relation
import Flowgraph.Store.Render

/-!
# How deep values are nested

A value is printed with its parts, and these with theirs. As long as it does not come back to
itself, it is nested at most as deep as the store has places, since each further part is in a place
of its own.
-/

namespace Flowgraph

namespace Store

open Relation

variable {s : Store} {v w : Value} {n : Nat}

/-! ### Parts -/

/-- What a value is printed with: the elements of its block, the target of a pointer, or the keys
and values of its dictionary. -/
def parts (s : Store) : Value → List Value
  | .slice b | .struct b => (s.block b).toList
  | .pointer b i => (s.target? b i).toList
  | .map d => (s.dict d).entries.flatMap fun e => [e.1, e.2]
  | _ => []

/-- The second value is a part of the first one. -/
def Part (s : Store) (v w : Value) : Prop := w ∈ s.parts v

/-- Nothing that the value is made of is a part of itself, however far down. -/
def Acyclic (s : Store) (v : Value) : Prop :=
  ∀ w, ReflTransGen s.Part v w → ¬TransGen s.Part w w

/-! ### Places -/

/-- The contents of all places. -/
def held (s : Store) : List Value :=
  s.blocks.toList.flatMap Array.toList ++
    s.dicts.toList.flatMap fun d => d.entries.flatMap fun e => [e.1, e.2]

lemma foldl_length {α : Type} (contents : α → List Value) (l : List α) (n : Nat) :
    l.foldl (fun n a => n + (contents a).length) n = n + (l.flatMap contents).length := by
  induction l generalizing n with
  | nil => rfl
  | cons a l ih =>
    rw [List.foldl_cons, ih, List.flatMap_cons, List.length_append, Nat.add_assoc]

lemma length_entries (D : Dict) : (D.entries.flatMap fun e => [e.1, e.2]).length = 2 * D.size := by
  obtain ⟨es⟩ := D
  induction es with
  | nil => rfl
  | cons e es ih =>
    show _ = 2 * (es.length + 1)
    rw [List.flatMap_cons, List.length_append, ih, Nat.mul_succ, Nat.add_comm]
    rfl

lemma length_held (s : Store) : s.held.length = s.places := by
  have hblocks := foldl_length Array.toList s.blocks.toList 0
  have hdicts := foldl_length (fun D : Dict => D.entries.flatMap fun e => [e.1, e.2])
    s.dicts.toList 0
  simp only [Nat.zero_add, Array.length_toList, length_entries, Array.foldl_toList]
    at hblocks hdicts
  rw [held, places, List.length_append, ← hblocks, ← hdicts]

lemma block_mem_held {b : BlockId} (h : w ∈ (s.block b).toList) : w ∈ s.held := by
  rw [block] at h
  cases hb : s.blocks[b.index]? with
  | none => simp [hb] at h
  | some elements =>
    rw [hb, Option.getD_some] at h
    refine List.mem_append_left _ (List.mem_flatMap.mpr ⟨elements, ?_, h⟩)
    exact Array.mem_toList_iff.mpr (Array.mem_of_getElem? hb)

/-- Parts are in places. -/
lemma Part.mem_held (h : s.Part v w) : w ∈ s.held := by
  cases v with
  | slice b | struct b => exact block_mem_held h
  | pointer b i =>
    obtain hw : s.target? b i = some w := Option.mem_toList.mp h
    exact block_mem_held (Array.mem_toList_iff.mpr (Array.mem_of_getElem? hw))
  | map d =>
    change w ∈ (s.dict d).entries.flatMap fun e => [e.1, e.2] at h
    rw [dict] at h
    cases hd : s.dicts[d.index]? with
    | none => simp [hd] at h
    | some D =>
      rw [hd, Option.getD_some] at h
      refine List.mem_append_right _ (List.mem_flatMap.mpr ⟨D, ?_, h⟩)
      exact Array.mem_toList_iff.mpr (Array.mem_of_getElem? hd)
  | _ => cases h

/-! ### Depths -/

/-- A value is nested less than `n` deep. -/
def Shallow (s : Store) : Nat → Value → Prop
  | 0, _ => False
  | n + 1, v => ∀ w, s.Part v w → s.Shallow n w

lemma Shallow.succ (h : s.Shallow n v) : s.Shallow (n + 1) v := by
  induction n generalizing v with
  | zero => exact h.elim
  | succ n ih => exact fun w hw => ih (h w hw)

lemma Shallow.part (h : s.Shallow n v) (hw : s.Part v w) : s.Shallow n w := by
  cases n with
  | zero => exact h.elim
  | succ n => exact (h w hw).succ

/-- Coming back to itself, a value would be nested infinitely deep. -/
lemma Shallow.not_transGen (h : s.Shallow n v) : ¬TransGen s.Part v v := by
  induction n generalizing v with
  | zero => exact h.elim
  | succ n ih =>
    intro hcycle
    obtain ⟨w, hw, hback⟩ := TransGen.head'_iff.mp hcycle
    exact ih (h w hw) (.tail' hback hw)

lemma Shallow.acyclic (h : s.Shallow n v) : s.Acyclic v := by
  intro w hw
  have hshallow : s.Shallow n w := by
    induction hw with
    | refl => exact h
    | tail _ hpart ih => exact ih.part hpart
  exact hshallow.not_transGen

/-- Below a value that is nested deeper there is a chain of parts. -/
lemma exists_chain (h : ¬s.Shallow n v) : ∃ ws : List Value, ws.length = n ∧
    (v :: ws).IsChain s.Part := by
  induction n generalizing v with
  | zero => exact ⟨[], rfl, .singleton v⟩
  | succ n ih =>
    simp only [Shallow, not_forall] at h
    obtain ⟨w, hw, hdeep⟩ := h
    obtain ⟨ws, hlength, hchain⟩ := ih hdeep
    exact ⟨w :: ws, congrArg Nat.succ hlength, .cons_cons hw hchain⟩

/-- Without cycles, the values in a chain of parts are in different places. -/
lemma Acyclic.length_le (h : s.Acyclic v) {ws : List Value} (hchain : (v :: ws).IsChain s.Part) :
    ws.length ≤ s.places := by
  have hpairs : (v :: ws).Pairwise (TransGen s.Part) :=
    List.isChain_iff_pairwise.mp (hchain.imp fun _ _ hpart => .single hpart)
  obtain ⟨hbelow, hlater⟩ := List.pairwise_cons.mp hpairs
  -- A value that occurs twice in the chain would be a part of itself.
  have hnodup : ws.Nodup := by
    refine hlater.imp_of_mem fun {a b} ha _ hab => ?_
    rintro rfl
    exact h a (hbelow a ha).to_reflTransGen hab
  have hsub : ws ⊆ s.held := fun a ha => by
    obtain ⟨u, -, hpart⟩ := TransGen.tail'_iff.mp (hbelow a ha)
    exact hpart.mem_held
  rw [← length_held]
  exact (List.subperm_of_subset hnodup hsub).length_le

/-- A value without cycles is nested at most as deep as there are places. -/
theorem Acyclic.shallow (h : s.Acyclic v) : s.Shallow (s.places + 1) v := by
  by_contra hdeep
  obtain ⟨ws, hlength, hchain⟩ := exists_chain hdeep
  have hle := h.length_le hchain
  omega

end Store

end Flowgraph
