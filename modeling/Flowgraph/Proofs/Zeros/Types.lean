import Flowgraph.Proofs.Halting.Forward
import Flowgraph.Proofs.Zeros.Parts

/-!
# Types with zero values

A type has a zero value if it is not nested in itself, through elements and fields, and if none of
the arrays that are made for it is too large to be held in one piece. Types may refer to later ones.
-/

namespace Flowgraph

namespace Ty

/-- The types whose zero value is nil. -/
def isHandle : Ty → Bool
  | slice _ | map _ _ | chan _ | pointer _ | func | any => true
  | _ => false

/-- The types of the zero values that the zero value of a type holds, in their order. -/
def made : Ty → List TypeId
  | array elem length => List.replicate length elem
  | struct fields => fields.map Prod.snd
  | _ => []

lemma mem_parts_of_mem_made {ty : Ty} {u : TypeId} (h : u ∈ ty.made) : u ∈ ty.parts := by
  cases ty with
  | array elem length => exact List.mem_singleton.mpr (List.eq_of_mem_replicate h)
  | struct fields => exact h
  | _ => cases h

end Ty

namespace Graph

variable {g : Graph} {s t : Store} {ty : Ty} {a b : TypeId} {τ : Option TypeId} {v : Value}

/-! ### Types that are not nested in themselves -/

/-- The nesting of a type through array elements and struct fields is well-founded. All types that
it leads to are there. -/
inductive Founded (g : Graph) : TypeId → Prop
  | intro {a : TypeId} {ty : Ty} (type : g.type? a = some ty)
    (parts : ∀ b ∈ ty.parts, Founded g b) : Founded g a

/-- An array that is made for the zero value of a type is too large to be held in one piece. -/
inductive Oversized (g : Graph) : TypeId → Prop
  | array {a elem : TypeId} {length : Nat} (type : g.type? a = some (.array elem length))
    (large : maxValues < length) : Oversized g a
  | part {a b : TypeId} {ty : Ty} (type : g.type? a = some ty) (made : b ∈ ty.made)
    (part : Oversized g b) : Oversized g a

/-- One of several types is that of a zero value which is too large. -/
def TooLarge (g : Graph) (τs : List (Option TypeId)) : Prop := ∃ a, some a ∈ τs ∧ g.Oversized a

@[simp] lemma not_tooLarge_nil : ¬g.TooLarge [] := fun ⟨_, h, _⟩ => List.not_mem_nil h

@[simp] lemma not_tooLarge_none : ¬g.TooLarge [none] := by
  rintro ⟨a, ha, -⟩
  cases List.mem_singleton.mp ha

@[simp] lemma tooLarge_singleton : g.TooLarge [some a] ↔ g.Oversized a := by
  simp [TooLarge]

lemma tooLarge_cons {τs : List (Option TypeId)} :
    g.TooLarge (τ :: τs) ↔ g.TooLarge [τ] ∨ g.TooLarge τs := by
  simp only [TooLarge, List.mem_cons, List.not_mem_nil, or_false, or_and_right, exists_or]

lemma oversized_iff (hty : g.type? a = some ty) : g.Oversized a ↔
    (∃ elem length, ty = .array elem length ∧ maxValues < length) ∨
      g.TooLarge (ty.made.map some) := by
  constructor
  · rintro (⟨hty', hlarge⟩ | ⟨hty', hmade, hpart⟩)
    · rw [hty] at hty'
      exact .inl ⟨_, _, Option.some.inj hty', hlarge⟩
    · rw [hty] at hty'
      cases hty'
      exact .inr ⟨_, List.mem_map_of_mem hmade, hpart⟩
  · rintro (⟨elem, length, rfl, hlarge⟩ | ⟨b, hb, hpart⟩)
    · exact .array hty hlarge
    · obtain ⟨c, hc, hcb⟩ := List.mem_map.mp hb
      cases hcb
      exact .part hty hc hpart

/-- If all arrays can be held in one piece, nothing is too large. -/
lemma not_oversized (h : ∀ ty ∈ g.types, ∀ elem length, ty = .array elem length →
    length ≤ maxValues) (a : TypeId) : ¬g.Oversized a := by
  intro hlarge
  induction hlarge with
  | array hty hgt => exact Nat.not_lt_of_le (h _ (Array.mem_of_getElem? hty) _ _ rfl) hgt
  | part _ _ _ ih => exact ih

lemma Founded.part (h : g.Founded a) (hty : g.type? a = some ty) (hb : b ∈ ty.parts) :
    g.Founded b := by
  obtain ⟨hty', hparts⟩ := h
  rw [hty] at hty'
  cases hty'
  exact hparts b hb

lemma Founded.acyclic (h : g.Founded a) : ¬Relation.TransGen g.Contains a a := by
  induction h with
  | @intro a ty hty _ ih =>
    intro hcycle
    obtain ⟨b, ⟨ty', hty', hb⟩, hback⟩ := Relation.TransGen.head'_iff.mp hcycle
    rw [hty] at hty'
    cases hty'
    exact ih b hb (.tail' hback ⟨ty, hty, hb⟩)

/-- There are only so many types, so such a type has a rank that its parts are below. -/
lemma exists_rank_of_founded (g : Graph) : ∃ rank : TypeId → Nat, (∀ a, rank a ≤ g.types.size) ∧
    ∀ a b, g.Founded a → g.Contains a b → rank b < rank a := by
  have hacyclic : Acyclic fun a b => g.Founded a ∧ g.Contains a b := by
    intro a hcycle
    obtain ⟨b, ⟨ha, -⟩, -⟩ := Relation.TransGen.head'_iff.mp hcycle
    exact ha.acyclic (Relation.TransGen.mono (fun _ _ h => And.right h) _ _ hcycle)
  have hindex : TypeId.index.Injective := fun a b hab => congrArg TypeId.mk hab
  obtain ⟨rank, hle, hlt⟩ := hacyclic.exists_rank TypeId.index hindex
    fun a b ⟨_, ty, hty, _⟩ => (Array.getElem?_eq_some_iff.mp hty).1
  exact ⟨rank, hle, fun a b ha hab => hlt a b ⟨ha, hab⟩⟩

/-! ### The shape of zero values -/

/-- A value follows the descriptor of its type, and is zero throughout. -/
inductive Zeroed (g : Graph) (s : Store) : Option TypeId → Value → Prop
  | untyped : Zeroed g s none .nil
  | bool {a : TypeId} (type : g.type? a = some .bool) : Zeroed g s (some a) (.bool false)
  | int {a : TypeId} (type : g.type? a = some .int) : Zeroed g s (some a) (.int 0)
  | float {a : TypeId} (type : g.type? a = some .float) : Zeroed g s (some a) (.float 0.0)
  | string {a : TypeId} (type : g.type? a = some .string) : Zeroed g s (some a) (.str "")
  | handle {a : TypeId} {ty : Ty} (type : g.type? a = some ty) (handle : ty.isHandle = true) :
    Zeroed g s (some a) .nil
  /-- An array has exactly as many elements as its type says. -/
  | array {a elem : TypeId} {length : Nat} {b : BlockId}
    (type : g.type? a = some (.array elem length)) (size : (s.block b).size = length)
    (elements : ∀ (i : Nat) (w : Value), (s.block b)[i]? = some w → Zeroed g s (some elem) w) :
    Zeroed g s (some a) (.slice b)
  /-- A struct has one field of each type, in their order. -/
  | struct {a : TypeId} {fields : List (String × TypeId)} {b : BlockId}
    (type : g.type? a = some (.struct fields)) (size : (s.block b).size = fields.length)
    (elements : ∀ (i : Nat) (c : TypeId) (w : Value), (fields.map Prod.snd)[i]? = some c →
      (s.block b)[i]? = some w → Zeroed g s (some c) w) :
    Zeroed g s (some a) (.struct b)

/-- A value keeps its shape as long as nothing happens to the blocks that its parts have. -/
lemma Zeroed.congr (h : g.Zeroed s τ v)
    (hsame : ∀ path x b, s.part? v path = some x → x.block? = some b → t.block b = s.block b) :
    g.Zeroed t τ v := by
  have hinner : ∀ {b : BlockId} {i : Nat} {v w : Value}, v.block? = some b →
      (s.block b)[i]? = some w →
      (∀ path x c, s.part? v path = some x → x.block? = some c → t.block c = s.block c) →
      ∀ path x c, s.part? w path = some x → x.block? = some c → t.block c = s.block c := by
    intro b i v w hb hw hsame path x c hx hc
    refine hsame (i :: path) x c ?_ hc
    rw [Store.part?, hb, Option.bind_some, hw]
    exact hx
  induction h with
  | untyped => exact .untyped
  | bool hty => exact .bool hty
  | int hty => exact .int hty
  | float hty => exact .float hty
  | string hty => exact .string hty
  | handle hty hhandle => exact .handle hty hhandle
  | @array a elem length b hty hsize _ ih =>
    have hblock := hsame [] _ b rfl rfl
    refine .array hty (by rw [hblock, hsize]) fun i w hw => ?_
    rw [hblock] at hw
    exact ih i w hw (hinner rfl hw hsame)
  | @struct a fields b hty hsize _ ih =>
    have hblock := hsame [] _ b rfl rfl
    refine .struct hty (by rw [hblock, hsize]) fun i c w hc hw => ?_
    rw [hblock] at hw
    exact ih i c w hc hw (hinner rfl hw hsame)

lemma zeroed_slice_iff {elem : TypeId} {length : Nat} {b : BlockId}
    (hty : g.type? a = some (.array elem length)) : g.Zeroed s (some a) (.slice b) ↔
      List.Forall₂ (g.Zeroed s) (List.replicate length (some elem)) (s.block b).toList := by
  simp only [List.forall₂_iff_get, List.length_replicate, Array.length_toList, List.get_eq_getElem,
    List.getElem_replicate, Array.getElem_toList]
  constructor
  · intro h
    cases h with
    | array hty' hsize helements =>
      rw [hty] at hty'
      cases hty'
      exact ⟨hsize.symm, fun i _ hi => helements i _ (Array.getElem?_eq_getElem hi)⟩
  · rintro ⟨hsize, helements⟩
    refine .array hty hsize.symm fun i w hw => ?_
    obtain ⟨hi, rfl⟩ := Array.getElem?_eq_some_iff.mp hw
    exact helements i (hsize ▸ hi) hi

lemma Zeroed.exists_struct {fields : List (String × TypeId)}
    (hty : g.type? a = some (.struct fields)) (h : g.Zeroed s (some a) v) :
    ∃ b, v = .struct b := by
  cases h with
  | struct => exact ⟨_, rfl⟩
  | handle hty' hhandle =>
    rw [hty] at hty'
    cases hty'
    cases hhandle
  | bool hty' | int hty' | float hty' | string hty' | array hty' =>
    rw [hty] at hty'
    cases hty'

lemma zeroed_struct_iff {fields : List (String × TypeId)} {b : BlockId}
    (hty : g.type? a = some (.struct fields)) : g.Zeroed s (some a) (.struct b) ↔
      List.Forall₂ (g.Zeroed s) ((fields.map Prod.snd).map some) (s.block b).toList := by
  simp only [List.forall₂_iff_get, List.length_map, Array.length_toList, List.get_eq_getElem,
    List.getElem_map, Array.getElem_toList]
  constructor
  · intro h
    cases h with
    | struct hty' hsize helements =>
      rw [hty] at hty'
      cases hty'
      refine ⟨hsize.symm, fun i hi hi' => ?_⟩
      have hc : (fields.map Prod.snd)[i]? = some fields[i].2 := by
        rw [List.getElem?_map, List.getElem?_eq_getElem hi]
        rfl
      exact helements i _ _ hc (Array.getElem?_eq_getElem hi')
  · rintro ⟨hsize, helements⟩
    refine .struct hty hsize.symm fun i c w hc hw => ?_
    obtain ⟨hi, rfl⟩ := Array.getElem?_eq_some_iff.mp hw
    obtain ⟨hi', rfl⟩ := List.getElem?_eq_some_iff.mp hc
    have helement := helements i (hsize ▸ hi) hi
    rwa [List.getElem_map]

end Graph

end Flowgraph
