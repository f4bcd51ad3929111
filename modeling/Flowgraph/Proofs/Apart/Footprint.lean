import Mathlib.Data.Set.Basic
import Flowgraph.Proofs.Names.Stores

/-!
# Locations and footprints

A location is a place of the store whose content can change: a slot, an element, a dictionary, a
channel, or the output. The shapes of frames and blocks never change. A store looks from some
locations like another one if the same is found there, up to renaming, and two changes have the
same effect if they leave the same at the locations that may be written and in what is created, and
leave everything else alone.
-/

namespace Flowgraph

open Named

/-- Something mentions only names that have been given out. -/
def Within {α : Type} [Named α] (n : Table → Nat) (a : α) : Prop := ∀ T k, Mentions a T k → k < n T

/-- A place of the store whose content can change. -/
inductive Location where
  | slot (f : FrameId) (i : Nat)
  | element (b : BlockId) (i : Nat)
  | dict (d : DictId)
  | channel (c : ChannelId)
  | output

/-- What is found at a location. -/
inductive Content where
  | value (v : Option Value)
  | dict (d : Option Dict)
  | channel (c : Option Channel)
  | output (o : Output)

/-- What never changes about a frame or a block: how much it holds, and which frame lies further
out. -/
structure Shape where
  size : Nat
  parent : Option FrameId

instance : Named Location where
  rename π
    | .slot f i => .slot (rename π f) i
    | .element b i => .element (rename π b) i
    | .dict d => .dict (rename π d)
    | .channel c => .channel (rename π c)
    | .output => .output
  Mentions l T k := match l with
    | .slot f _ => Mentions f T k
    | .element b _ => Mentions b T k
    | .dict d => Mentions d T k
    | .channel c => Mentions c T k
    | .output => False
  rename_id l := by cases l <;> simp
  rename_rename σ π l := by cases l <;> simp
  rename_eq_iff ρ σ l := by cases l <;> simp [rename_eq_iff]

instance : Named Content where
  rename π
    | .value v => .value (rename π v)
    | .dict d => .dict (rename π d)
    | .channel c => .channel (rename π c)
    | .output o => .output o
  Mentions c T k := match c with
    | .value v => Mentions v T k
    | .dict d => Mentions d T k
    | .channel c => Mentions c T k
    | .output _ => False
  rename_id c := by cases c <;> simp
  rename_rename σ π c := by cases c <;> simp
  rename_eq_iff ρ σ c := by cases c <;> simp [rename_eq_iff]

instance : Named Shape where
  rename π s := { s with parent := rename π s.parent }
  Mentions s := Mentions s.parent
  rename_id _ := by simp
  rename_rename _ _ _ := by simp
  rename_eq_iff _ _ _ := by simp [rename_eq_iff]

variable {α : Type} [Named α] {n n' : Table → Nat} {ρ σ π : Renaming} {s s' t t' : Store}

lemma Within.mono {a : α} (h : Within n a) (hn : ∀ T, n T ≤ n' T) : Within n' a :=
  fun T k hk => Nat.lt_of_lt_of_le (h T k hk) (hn T)

/-- Renamings that agree on what has been given out do the same. -/
lemma Within.rename_eq {a : α} (h : Within n a) (hρ : ∀ T k, k < n T → ρ T k = σ T k) :
    rename ρ a = rename σ a :=
  (rename_eq_iff ρ σ a).mpr fun T k hk => hρ T k (h T k hk)

lemma Within.rename_self {a : α} (h : Within n a) (hρ : ∀ T k, k < n T → ρ T k = k) :
    rename ρ a = a :=
  (h.rename_eq (σ := .id) hρ).trans (rename_id a)

namespace Location

/-- Where two locations get the same name, they name something in the same table, unless there is
nothing to name. -/
lemma of_rename_eq {l l' : Location} (h : rename ρ l = rename σ l') :
    l = l' ∧ (∀ n, Within n l) ∨ ∃ T k k', Mentions l T k ∧ Mentions l' T k' ∧ ρ T k = σ T k' ∧
      (k = k' → l = l') := by
  cases l <;> cases l' <;>
    simp only [rename, slot.injEq, element.injEq, dict.injEq, channel.injEq, FrameId.mk.injEq,
      BlockId.mk.injEq, DictId.mk.injEq, ChannelId.mk.injEq, reduceCtorEq] at h
  case slot.slot f i g j =>
    obtain ⟨h, rfl⟩ := h
    exact .inr ⟨.frames, f.index, g.index, ⟨rfl, rfl⟩, ⟨rfl, rfl⟩, h, fun he => by
      cases f; cases g; cases he; rfl⟩
  case element.element b i c j =>
    obtain ⟨h, rfl⟩ := h
    exact .inr ⟨.blocks, b.index, c.index, ⟨rfl, rfl⟩, ⟨rfl, rfl⟩, h, fun he => by
      cases b; cases c; cases he; rfl⟩
  case dict.dict d e =>
    exact .inr ⟨.dicts, d.index, e.index, ⟨rfl, rfl⟩, ⟨rfl, rfl⟩, h, fun he => by
      cases d; cases e; cases he; rfl⟩
  case channel.channel c d =>
    exact .inr ⟨.channels, c.index, d.index, ⟨rfl, rfl⟩, ⟨rfl, rfl⟩, h, fun he => by
      cases c; cases d; cases he; rfl⟩
  case output.output => exact .inl ⟨rfl, fun n T k hk => hk.elim⟩

lemma mentions_rename {l : Location} {T : Table} {k : Nat} :
    Mentions (rename ρ l) T k ↔ ∃ j, Mentions l T j ∧ ρ T j = k := by
  cases l
  case output => exact ⟨False.elim, fun ⟨_, hj, _⟩ => hj⟩
  all_goals
    constructor
    · rintro ⟨rfl, rfl⟩
      exact ⟨_, ⟨rfl, rfl⟩, rfl⟩
    · rintro ⟨_, ⟨rfl, rfl⟩, rfl⟩
      exact ⟨rfl, rfl⟩

/-- A location is in one table at most, under one name. -/
lemma mentions_unique {l : Location} {T T' : Table} {k k' : Nat} (h : Mentions l T k)
    (h' : Mentions l T' k') : T' = T ∧ k' = k := by
  cases l <;> simp only [Mentions] at h h'
  all_goals
    obtain ⟨rfl, rfl⟩ := h
    exact h'

lemma within_iff {l : Location} {T : Table} {k : Nat} (h : Mentions l T k) :
    Within n l ↔ k < n T := by
  constructor
  · exact fun hw => hw T k h
  · intro hk T' k' h'
    obtain ⟨rfl, rfl⟩ := mentions_unique h h'
    exact hk

end Location

namespace Store

/-- What is found at a location. -/
def content (s : Store) : Location → Content
  | .slot f i => .value (s.slot? f i)
  | .element b i => .value (s.target? b i)
  | .dict d => .dict s.dicts[d.index]?
  | .channel c => .channel s.channels[c.index]?
  | .output => .output s.output

/-- The shape of what a table has under a name. -/
def shape? (s : Store) : Table → Nat → Option Shape
  | .frames, k => s.frames[k]?.map fun f => ⟨f.slots.size, f.parent⟩
  | .blocks, k => s.blocks[k]?.map fun b => ⟨b.size, none⟩
  | .dicts, k => s.dicts[k]?.map fun _ => ⟨0, none⟩
  | .channels, k => s.channels[k]?.map fun _ => ⟨0, none⟩

lemma isSome_shape? (s : Store) (T : Table) (k : Nat) : (s.shape? T k).isSome ↔ k < s.size T := by
  cases T <;> simp [shape?, size]

lemma shape?_eq_none {s : Store} {T : Table} {k : Nat} (h : s.size T ≤ k) :
    s.shape? T k = none := by
  rw [← Option.not_isSome_iff_eq_none, isSome_shape?]
  omega

/-- The shape of a frame is its size, and which frame lies further out. -/
lemma frame_of_shape? {k : Nat} {shape : Shape} (h : s.shape? .frames k = some shape) :
    s.frameSize ⟨k⟩ = shape.size ∧ s.parent? ⟨k⟩ = shape.parent := by
  obtain ⟨f, hf, rfl⟩ := Option.map_eq_some_iff.mp h
  simp only [frameSize, slots, parent?, frame, hf, Option.getD_some, and_self]

/-- A store mentions no names that it has not given out. -/
structure Closed (s : Store) : Prop where
  anchored : globalFrame.index < s.frames.size
  frames : Within s.size s.frames
  blocks : Within s.size s.blocks
  dicts : Within s.size s.dicts
  channels : Within s.size s.channels

namespace Closed

variable (h : s.Closed)

include h

lemma shape? (T : Table) (k : Nat) : Within s.size (s.shape? T k) := by
  intro T' k' hk
  obtain ⟨shape, hs, hk⟩ := hk
  cases T <;> simp only [Store.shape?, Option.mem_def, Option.map_eq_some_iff] at hs
  case frames =>
    obtain ⟨f, hf, rfl⟩ := hs
    exact h.frames T' k' ⟨f, Array.mem_of_getElem? hf, .inr hk⟩
  all_goals
    obtain ⟨_, _, rfl⟩ := hs
    obtain ⟨_, hn, _⟩ := hk
    cases hn

lemma content (l : Location) : Within s.size (s.content l) := by
  intro T k hk
  cases l with
  | slot f i =>
    obtain ⟨v, hv, hk⟩ := hk
    simp only [slot?, slots, frame, Option.mem_def] at hv
    cases hf : s.frames[f.index]? with
    | none =>
      rw [hf] at hv
      cases hv
    | some fr =>
      rw [hf] at hv
      exact h.frames T k ⟨fr, Array.mem_of_getElem? hf, .inl ⟨v, Array.mem_of_getElem? hv, hk⟩⟩
  | element b i =>
    obtain ⟨v, hv, hk⟩ := hk
    simp only [target?, block, Option.mem_def] at hv
    cases hb : s.blocks[b.index]? with
    | none =>
      rw [hb] at hv
      cases hv
    | some elements =>
      rw [hb] at hv
      exact h.blocks T k ⟨elements, Array.mem_of_getElem? hb, v, Array.mem_of_getElem? hv, hk⟩
  | dict d =>
    obtain ⟨content, hd, hk⟩ := hk
    exact h.dicts T k ⟨content, Array.mem_of_getElem? hd, hk⟩
  | channel c =>
    obtain ⟨content, hc, hk⟩ := hk
    exact h.channels T k ⟨content, Array.mem_of_getElem? hc, hk⟩
  | output => exact hk.elim

end Closed

/-! ### Views -/

/-- From the locations of a footprint, one store looks like the other one does, with other names.
The global frame is the same. -/
structure View (ρ : Renaming) (A : Set Location) (s t : Store) : Prop where
  anchored : ρ .frames globalFrame.index = globalFrame.index
  injective : ∀ T j k, j < s.size T → k < s.size T → ρ T j = ρ T k → j = k
  shape : ∀ T k, k < s.size T → t.shape? T (ρ T k) = rename ρ (s.shape? T k)
  content : ∀ l ∈ A, Within s.size l → t.content (rename ρ l) = rename ρ (s.content l)

/-- What has been given a name in the first store has one in the second store. -/
lemma View.lt {A : Set Location} (h : View ρ A s t) {T : Table} {k : Nat} (hk : k < s.size T) :
    ρ T k < t.size T := by
  rw [← isSome_shape?, h.shape T k hk]
  cases hs : s.shape? T k with
  | none => rw [← isSome_shape?, hs] at hk; cases hk
  | some shape => rfl

/-- A frame is as large as it is in the first store, and linked alike. -/
lemma View.frame {A : Set Location} (h : View ρ A s t) {f : FrameId}
    (hf : f.index < s.frames.size) : t.frameSize (rename ρ f) = s.frameSize f ∧
      t.parent? (rename ρ f) = rename ρ (s.parent? f) := by
  have hshape := h.shape .frames f.index hf
  obtain ⟨shape, hs⟩ := Option.isSome_iff_exists.mp ((isSome_shape? s .frames f.index).mpr hf)
  rw [hs] at hshape
  obtain ⟨hsize, hparent⟩ := frame_of_shape? hs
  obtain ⟨hsize', hparent'⟩ := frame_of_shape? hshape
  exact ⟨hsize'.trans hsize.symm, hparent'.trans (congrArg (rename ρ) hparent).symm⟩

/-- Only what the new names are of what there is matters. -/
lemma View.congr {A : Set Location} (h : View ρ A s t) (hs : s.Closed)
    (hσ : ∀ T k, k < s.size T → σ T k = ρ T k) : View σ A s t where
  anchored := (hσ .frames _ hs.anchored).trans h.anchored
  injective T j k hj hk := by
    rw [hσ T j hj, hσ T k hk]
    exact h.injective T j k hj hk
  shape T k hk := by
    rw [hσ T k hk, (hs.shape? T k).rename_eq hσ]
    exact h.shape T k hk
  content l hl hw := by
    rw [hw.rename_eq hσ, (hs.content l).rename_eq hσ]
    exact h.content l hl hw

/-! ### Effects -/

/-- Names are given out, and only what is at some locations is changed. -/
structure Touches (W : Set Location) (s s' : Store) : Prop where
  grows : s.Grows s'
  shape : ∀ T k, k < s.size T → s'.shape? T k = s.shape? T k
  content : ∀ l, Within s.size l → l ∉ W → s'.content l = s.content l

/-- The locations of a footprint under their new names. -/
def Seen (ρ : Renaming) (W : Set Location) (s : Store) : Set Location :=
  {l | ∃ k ∈ W, Within s.size k ∧ l = rename ρ k}

/-- Two changes have the same effect: as much is created, at most some locations are changed, and
what is created or may be changed is left the same by both. -/
structure Effect (ρ : Renaming) (W : Set Location) (s s' t t' : Store) : Prop where
  here : s.Touches W s'
  there : t.Touches (Seen ρ W s) t'
  created : ∀ T, t'.size T + s.size T = t.size T + s'.size T
  shape : ∀ T k, s.size T ≤ k → t'.shape? T (ρ T k) = rename ρ (s'.shape? T k)
  content : ∀ l, l ∈ W ∨ ¬Within s.size l → t'.content (rename ρ l) = rename ρ (s'.content l)

/-- The names that one store has for those of another one, which goes on from here. -/
def extended (ρ : Renaming) (s t : Store) : Renaming := fun T k =>
  if k < s.size T then ρ T k else t.size T + (k - s.size T)

/-- The names that the second store gives out next correspond to those that the first one does. -/
def Fresh (ρ : Renaming) (s t : Store) : Prop := ∀ T j, ρ T (s.size T + j) = t.size T + j

/-- The names of the first store remain. -/
def Keeps (ρ : Renaming) (s : Store) : Prop := ∀ T k, k < s.size T → ρ T k = k

lemma extended_of_lt {T : Table} {k : Nat} (h : k < s.size T) : extended ρ s t T k = ρ T k :=
  if_pos h

lemma fresh_extended (ρ : Renaming) (s t : Store) : Fresh (extended ρ s t) s t := fun T j => by
  rw [extended, if_neg (Nat.not_lt.mpr (Nat.le_add_right _ _)), Nat.add_sub_cancel_left]

lemma extended_of_le {T : Table} {k : Nat} (h : s.size T ≤ k) :
    extended ρ s t T k = t.size T + (k - s.size T) := if_neg (Nat.not_lt.mpr h)

section Effects

variable {A W : Set Location}

/-- A location that has been given a name in the first store has one in the second store. -/
lemma View.within (h : View ρ A s t) {l : Location} (hl : Within s.size l) :
    Within t.size (rename ρ l) := by
  intro T k hk
  obtain ⟨j, hj, rfl⟩ := Location.mentions_rename.mp hk
  exact h.lt (hl T j hj)

/-- Locations keep apart under their new names. -/
lemma View.rename_inj (h : View ρ A s t) {l k : Location} (hl : Within s.size l)
    (hk : Within s.size k) (he : rename ρ l = rename ρ k) : l = k := by
  rcases Location.of_rename_eq he with ⟨he, -⟩ | ⟨T, i, j, hi, hj, hij, he⟩
  · exact he
  · exact he (h.injective T i j (hl T i hi) (hk T j hj) hij)

/-- After changes of the same effect the stores still look alike. -/
lemma View.after (h : View ρ A s t) (hf : Fresh ρ s t) (he : Effect ρ W s s' t t') :
    View ρ A s' t' where
  anchored := h.anchored
  injective T j k hj hk hjk := by
    have hnew : ∀ k, s.size T ≤ k → ρ T k = t.size T + (k - s.size T) := fun k hk => by
      rw [← hf, Nat.add_sub_cancel' hk]
    by_cases hj' : j < s.size T <;> by_cases hk' : k < s.size T
    · exact h.injective T j k hj' hk' hjk
    · have hlt := h.lt hj'
      rw [hnew k (by omega)] at hjk
      omega
    · have hlt := h.lt hk'
      rw [hnew j (by omega)] at hjk
      omega
    · rw [hnew j (by omega), hnew k (by omega)] at hjk
      omega
  shape T k hk := by
    by_cases hk' : k < s.size T
    · rw [he.there.shape T _ (h.lt hk'), h.shape T k hk', he.here.shape T k hk']
    · exact he.shape T k (by omega)
  content l hl hw := by
    by_cases hnew : l ∈ W ∨ ¬Within s.size l
    · exact he.content l hnew
    · obtain ⟨hW, hs⟩ := not_or.mp hnew
      have hs := not_not.mp hs
      have hseen : rename ρ l ∉ Seen ρ W s := by
        rintro ⟨k, hk, hkw, heq⟩
        exact hW (h.rename_inj hs hkw heq ▸ hk)
      rw [he.there.content _ (h.within hs) hseen, he.here.content l hs hW, h.content l hl hs]

/-- More locations may be written if they look the same from the beginning. -/
lemma Effect.mono {W' : Set Location} (he : Effect ρ W s s' t t') (h : View ρ A s t)
    (hf : Fresh ρ s t) (hW : W ⊆ W') (hA : ∀ l ∈ W', Within s.size l → l ∈ A) :
    Effect ρ W' s s' t t' where
  here := ⟨he.here.grows, he.here.shape, fun l hl hn => he.here.content l hl fun hw => hn (hW hw)⟩
  there := ⟨he.there.grows, he.there.shape, fun l hl hn => he.there.content l hl
    fun ⟨k, hk, hw, heq⟩ => hn ⟨k, hW hk, hw, heq⟩⟩
  created := he.created
  shape := he.shape
  content l hl := by
    by_cases hw : Within s.size l
    · have hA := hA l (hl.resolve_right fun hn => hn hw) hw
      exact (h.after hf he).content l hA (hw.mono he.here.grows)
    · exact he.content l (.inr hw)

end Effects

end Store

end Flowgraph
