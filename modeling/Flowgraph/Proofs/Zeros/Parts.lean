import Mathlib.Data.List.Infix
import Flowgraph.Proofs.Apart.Footprint
import Flowgraph.Proofs.Faults.Intact
import Flowgraph.Proofs.Pointers.Bounds

/-!
# Parts of values

The parts of a value are the value itself and the parts of what its block holds. A part is found at
a position: the numbers of the elements on the way to it. So what is found at a position depends on
the elements on the way and on nothing else. What a store holds has no parts in blocks that are
added later.
-/

namespace Flowgraph

/-- The block of a composite value. -/
def Value.block? : Value → Option BlockId
  | slice b | struct b => some b
  | _ => none

namespace Store

variable {s t u : Store} {v x : Value} {vs : List Value} {b : BlockId} {i : Nat}
  {path P : List Nat} {A A' : BlockId → Nat → Prop}

/-! ### Positions -/

/-- What is found at a position in a value. -/
def part? (s : Store) : Value → List Nat → Option Value
  | v, [] => some v
  | v, i :: path => v.block?.bind fun b => (s.block b)[i]?.bind fun w => s.part? w path

/-- What is found at a position among several values. The position begins with the number of a
value. -/
def among? (s : Store) (vs : List Value) : List Nat → Option Value
  | [] => none
  | k :: path => vs[k]?.bind fun v => s.part? v path

@[simp] lemma among?_cons_zero : s.among? (v :: vs) (0 :: path) = s.part? v path := rfl

@[simp] lemma among?_cons_succ : s.among? (v :: vs) ((i + 1) :: path) = s.among? vs (i :: path) :=
  rfl

@[simp] lemma among?_empty : s.among? [] P = none := by
  cases P <;> rfl

/-- The parts of a composite value, but for itself, are the parts of its elements. -/
lemma part?_cons (hb : v.block? = some b) :
    s.part? v (i :: path) = s.among? (s.block b).toList (i :: path) := by
  rw [part?, hb, among?, Array.getElem?_toList]
  rfl

lemma part?_cons_of_none (hb : v.block? = none) : s.part? v (i :: path) = none := by
  rw [part?, hb]
  rfl

/-- A block that a part of some values has. -/
def Occupied (s : Store) (vs : List Value) (b : BlockId) : Prop :=
  ∃ P x, s.among? vs P = some x ∧ x.block? = some b

/-- No block is found at two positions. -/
def Unshared (s : Store) (vs : List Value) : Prop :=
  ∀ P Q x y b, s.among? vs P = some x → s.among? vs Q = some y → x.block? = some b →
    y.block? = some b → P = Q

/-- What is found at a position is the same where the elements on the way to it are. -/
lemma part?_congr (h : ∀ p j rest x b, path = p ++ j :: rest → s.part? v p = some x →
      x.block? = some b → (t.block b)[j]? = (s.block b)[j]?) :
    t.part? v path = s.part? v path := by
  induction path generalizing v with
  | nil => rfl
  | cons i path ih =>
    cases hb : v.block? with
    | none => rw [part?_cons_of_none hb, part?_cons_of_none hb]
    | some b =>
      have helement := h [] i path v b rfl rfl hb
      rw [part?, part?, hb, Option.bind_some, Option.bind_some, helement]
      cases hw : (s.block b)[i]? with
      | none => rfl
      | some w =>
        refine ih fun p j rest x c hp hx hc => h (i :: p) j rest x c (by rw [hp]; rfl) ?_ hc
        rw [part?, hb, Option.bind_some, hw]
        exact hx

lemma among?_congr (h : ∀ Q j x b, Q ++ [j] <+: P → s.among? vs Q = some x → x.block? = some b →
      (t.block b)[j]? = (s.block b)[j]?) :
    t.among? vs P = s.among? vs P := by
  cases P with
  | nil => rfl
  | cons k path =>
    rw [among?, among?]
    cases hv : vs[k]? with
    | none => rfl
    | some v =>
      refine part?_congr fun p j rest x b hp hx hb => h (k :: p) j x b ⟨rest, ?_⟩ ?_ hb
      · rw [hp, List.append_assoc]
        rfl
      · rw [among?, hv]
        exact hx

/-- Values have the same parts where the blocks of their parts are the same. -/
lemma among?_eq_of_occupied (h : ∀ b, s.Occupied vs b → t.block b = s.block b) (P : List Nat) :
    t.among? vs P = s.among? vs P :=
  among?_congr fun Q _ x b _ hx hb => by rw [h b ⟨Q, x, hx, hb⟩]

lemma block_eq_of_blocks (h : t.blocks = s.blocks) (b : BlockId) : t.block b = s.block b := by
  rw [block, block, h]

/-! ### Elements that are overwritten -/

/-- Elements at some places have been overwritten, any number of times. -/
inductive Rewritten (A : BlockId → Nat → Prop) (s : Store) : Store → Prop
  | refl : Rewritten A s s
  | write {t : Store} (h : Rewritten A s t) {b : BlockId} {i : Nat} (hA : A b i) (v : Value) :
    Rewritten A s (t.setElement b i v)

/-- All other elements are what they were. -/
lemma Rewritten.getElem? (h : s.Rewritten A t) (hA : ¬A b i) :
    (t.block b)[i]? = (s.block b)[i]? := by
  induction h with
  | refl => rfl
  | write _ hA' v ih =>
    refine (target?_setElement_of_ne (fun hb hi => hA ?_) v).trans ih
    rw [hb, hi]
    exact hA'

lemma Rewritten.mono (h : s.Rewritten A t) (hA : ∀ b i, A b i → A' b i) : s.Rewritten A' t := by
  induction h with
  | refl => exact .refl
  | write _ h v ih => exact ih.write (hA _ _ h) v

lemma Rewritten.trans (h : s.Rewritten A t) (h' : t.Rewritten A u) : s.Rewritten A u := by
  induction h' with
  | refl => exact h
  | write _ hA v ih => exact ih.write hA v

/-- Blocks keep their sizes. -/
lemma Rewritten.extends (h : s.Rewritten A t) : s.Extends t := by
  induction h with
  | refl => exact .refl s
  | write _ _ v ih => exact ih.setElement _ _ v

/-- A block without such places is what it was. -/
lemma Rewritten.block (h : s.Rewritten A t) (hA : ∀ i, ¬A b i) : t.block b = s.block b :=
  Array.ext_getElem? fun i => h.getElem? (hA i)

/-- So is everything outside blocks, and all blocks where no place is overwritten. -/
lemma Rewritten.carried {blocks : Array (Array Value)} (h : s.Rewritten A t)
    (hA : ∀ b i, A b i → blocks.size ≤ b.index) (hs : Carried blocks s.blocks) :
    Carried blocks t.blocks ∧ t = { s with blocks := t.blocks } := by
  induction h with
  | refl => exact ⟨hs, rfl⟩
  | write _ hA' v ih =>
    refine ⟨ih.1.modify (hA _ _ hA') _, ?_⟩
    rw [setElement, ih.2]

/-! ### Blocks that are added -/

/-- Nothing has been done to a store but to add blocks. -/
structure Extended (s t : Store) : Prop where
  carried : Carried s.blocks t.blocks
  beside : t = { s with blocks := t.blocks }

lemma Extended.refl (s : Store) : s.Extended s := ⟨.refl _, rfl⟩

lemma Extended.trans (h : s.Extended t) (h' : t.Extended u) : s.Extended u := by
  refine ⟨h.carried.trans h'.carried, ?_⟩
  rw [h'.beside, h.beside]

lemma Extended.newBlock (h : s.Extended t) (elements : Array Value) :
    s.Extended (t.newBlock elements).2 := by
  refine ⟨h.carried.push _, ?_⟩
  simp only [Store.newBlock]
  rw [h.beside]

lemma block_of_carried (h : Carried s.blocks t.blocks) (hb : b.index < s.blocks.size) :
    t.block b = s.block b := by
  rw [block, block, h _ hb]

lemma block_newBlock_self (s : Store) (elements : Array Value) :
    (s.newBlock elements).2.block (s.newBlock elements).1 = elements := by
  rw [block_newBlock, newBlock, if_pos rfl]

/-! ### Values that have been there before -/

lemma Closed.within_part (hs : s.Closed) (hv : Within s.size v) (h : s.part? v path = some x) :
    Within s.size x := by
  induction path generalizing v with
  | nil => exact Option.some.inj h ▸ hv
  | cons i path ih =>
    obtain ⟨b, -, h⟩ := Option.bind_eq_some_iff.mp h
    obtain ⟨w, hw, h⟩ := Option.bind_eq_some_iff.mp h
    have hcontent : Within s.size (s.content (.element b i)) := hs.content _
    exact ih (fun T k hk => hcontent T k ⟨w, hw, hk⟩) h

/-- A value that has been there before has its parts in blocks that have been there before. -/
lemma Closed.lt_of_part (hs : s.Closed) (hv : Within s.size v) (h : s.part? v path = some x)
    (hb : x.block? = some b) : b.index < s.blocks.size := by
  refine hs.within_part hv h .blocks b.index ?_
  cases x <;> cases hb <;> exact ⟨rfl, rfl⟩

/-- As long as nothing happens to these blocks, its parts stay the same. -/
lemma Closed.part?_eq (hs : s.Closed) (hv : Within s.size v) (h : Carried s.blocks t.blocks)
    (path : List Nat) : t.part? v path = s.part? v path :=
  part?_congr fun _ _ _ _ _ _ hx hb => by rw [block_of_carried h (hs.lt_of_part hv hx hb)]

lemma Closed.lt_of_occupied (hs : s.Closed) (hvs : ∀ v ∈ vs, Within s.size v)
    (h : Carried s.blocks t.blocks) (hb : t.Occupied vs b) : b.index < s.blocks.size := by
  obtain ⟨_ | ⟨k, path⟩, x, hx, hb⟩ := hb
  · cases hx
  · obtain ⟨v, hv, hx⟩ := Option.bind_eq_some_iff.mp hx
    have hwithin := hvs v (List.mem_of_getElem? hv)
    rw [hs.part?_eq hwithin h] at hx
    exact hs.lt_of_part hwithin hx hb

end Store

end Flowgraph
