import Flowgraph.Proofs.Apart.Footprint
import Flowgraph.Proofs.Activation

/-!
# Computations of the same effect

A computation mirrors another one if it ends alike and has the same effect, in a store that looks
the same. Computations that are made of parts mirror each other if their parts do. Binding a call
is the first example: reading is all that it does to what is there, and so what it creates depends
on nothing else.
-/

namespace Flowgraph

open Named

variable {α β : Type} [Named α] [Named β] {ρ : Renaming} {A W W' : Set Location}
  {s s' s'' t t' t'' : Store}

namespace Store

lemma Fresh.le (hf : Fresh ρ s t) {T : Table} {k : Nat} (hk : s.size T ≤ k) : t.size T ≤ ρ T k := by
  obtain ⟨j, rfl⟩ := Nat.exists_eq_add_of_le hk
  rw [hf]
  exact Nat.le_add_right _ _

/-- Where nothing is in one store, nothing is in the other one. -/
lemma Fresh.content (hf : Fresh ρ s t) {l : Location} (hl : ¬Within s.size l) :
    t.content (rename ρ l) = rename ρ (s.content l) := by
  have hge : ∀ T k, Mentions l T k → s.size T ≤ k := fun T k hk =>
    Nat.not_lt.mp fun hlt => hl ((Location.within_iff hk).mpr hlt)
  cases l with
  | slot f i =>
    have hs := hge .frames f.index ⟨rfl, rfl⟩
    simp only [rename, Store.content, slot?, slots, frame, Array.getElem?_eq_none hs,
      Array.getElem?_eq_none (hf.le hs)]
    rfl
  | element b i =>
    have hs := hge .blocks b.index ⟨rfl, rfl⟩
    simp only [rename, Store.content, target?, block, Array.getElem?_eq_none hs,
      Array.getElem?_eq_none (hf.le hs)]
    rfl
  | dict d =>
    have hs := hge .dicts d.index ⟨rfl, rfl⟩
    simp only [rename, Store.content, Array.getElem?_eq_none hs, Array.getElem?_eq_none (hf.le hs)]
    rfl
  | channel c =>
    have hs := hge .channels c.index ⟨rfl, rfl⟩
    simp only [rename, Store.content, Array.getElem?_eq_none hs, Array.getElem?_eq_none (hf.le hs)]
    rfl
  | output => exact absurd (fun T k hk => hk.elim) hl

/-! ### Composed effects -/

lemma Effect.refl (hf : Fresh ρ s t) : Effect ρ ∅ s s t t where
  here := ⟨.refl s, fun _ _ _ => rfl, fun _ _ _ => rfl⟩
  there := ⟨.refl t, fun _ _ _ => rfl, fun _ _ _ => rfl⟩
  created _ := rfl
  shape T k hk := by
    rw [shape?_eq_none hk, shape?_eq_none (hf.le hk)]
    rfl
  content l hl := hf.content (hl.resolve_left id)

/-- Whatever is given out next corresponds after changes of the same effect. -/
lemma Fresh.after (hf : Fresh ρ s t) (he : Effect ρ W s s' t t') : Fresh ρ s' t' := by
  intro T j
  have hgrows := he.here.grows T
  have hcreated := he.created T
  have hname := hf T (s'.size T - s.size T + j)
  rw [← Nat.add_assoc, Nat.add_sub_cancel' hgrows] at hname
  omega

/-- One effect after the other. -/
lemma Effect.trans (hview : View ρ A s t) (hf : Fresh ρ s t) (he : Effect ρ W s s' t t')
    (he' : Effect ρ W' s' s'' t' t'') (hW : ∀ l ∈ W', Within s.size l → l ∈ W) :
    Effect ρ W s s'' t t'' where
  here := by
    refine ⟨he.here.grows.trans he'.here.grows, fun T k hk => ?_, fun l hl hn => ?_⟩
    · rw [he'.here.shape T k (Nat.lt_of_lt_of_le hk (he.here.grows T)), he.here.shape T k hk]
    · rw [he'.here.content l (hl.mono he.here.grows) fun hw => hn (hW l hw hl),
        he.here.content l hl hn]
  there := by
    refine ⟨he.there.grows.trans he'.there.grows, fun T k hk => ?_, fun l hl hn => ?_⟩
    · rw [he'.there.shape T k (Nat.lt_of_lt_of_le hk (he.there.grows T)), he.there.shape T k hk]
    · have hseen : l ∉ Seen ρ W' s' := by
        rintro ⟨k, hk, hkw, rfl⟩
        refine hn ⟨k, ?_, ?_, rfl⟩
        · refine hW k hk fun T j hj => Nat.not_le.mp fun hle => ?_
          exact absurd (hl T _ (Location.mentions_rename.mpr ⟨j, hj, rfl⟩))
            (Nat.not_lt.mpr (hf.le hle))
        · refine fun T j hj => Nat.not_le.mp fun hle => ?_
          exact absurd (hl T _ (Location.mentions_rename.mpr ⟨j, hj, rfl⟩))
            (Nat.not_lt.mpr (hf.le hle))
      rw [he'.there.content l (hl.mono he.there.grows) hseen, he.there.content l hl hn]
  created T := by
    have h := he.created T
    have h' := he'.created T
    omega
  shape T k hk := by
    by_cases hk' : k < s'.size T
    · rw [he'.here.shape T k hk', ← he.shape T k hk,
        he'.there.shape T _ ((hview.after hf he).lt hk')]
    · exact he'.shape T k (Nat.not_lt.mp hk')
  content l hl := by
    by_cases hl' : l ∈ W' ∨ ¬Within s'.size l
    · exact he'.content l hl'
    · obtain ⟨hn, hw⟩ := not_or.mp hl'
      have hw := not_not.mp hw
      have hview' := hview.after hf he
      have hseen : rename ρ l ∉ Seen ρ W' s' := by
        rintro ⟨k, hk, hkw, heq⟩
        exact hn (hview'.rename_inj hw hkw heq ▸ hk)
      rw [he'.here.content l hw hn, ← he.content l hl, he'.there.content _ (hview'.within hw) hseen]

end Store

open Store

/-! ### Looks -/

/-- What is read is at some locations only: in every store that looks the same from there, the same
is found. -/
def Look.Confined {α : Type} (A : Set Location) (x : Look α) (s : Store) : Prop :=
  ∀ t, View .id A s t → x t = x s

/-! ### Computations -/

namespace Op

/-- Two computations end alike and have the same effect. -/
inductive Mirrors (ρ : Renaming) (W : Set Location) (s t : Store) :
    EStateM.Result Stop Store α → EStateM.Result Stop Store α → Prop
  | ok {a : α} {s' t' : Store} (h : Effect ρ W s s' t t') :
    Mirrors ρ W s t (.ok a s') (.ok (rename ρ a) t')
  | error {e : Stop} {s' t' : Store} (h : Effect ρ W s s' t t') :
    Mirrors ρ W s t (.error e s') (.error e t')

section Parts

variable (hview : View ρ A s t) (hf : Fresh ρ s t) (hA : W ⊆ A)

include hview hf

/-- A larger part of the store may be written if it looks the same from the beginning. -/
lemma Mirrors.mono {x y : EStateM.Result Stop Store α} (h : Mirrors ρ W s t x y) (hW : W ⊆ W')
    (hA : W' ⊆ A) : Mirrors ρ W' s t x y := by
  cases h with
  | ok he => exact .ok (he.mono hview hf hW fun l hl _ => hA hl)
  | error he => exact .error (he.mono hview hf hW fun l hl _ => hA hl)

/-- One computation after the other. -/
lemma Mirrors.bind {x y : Op α} {f g : α → Op β} (h : Mirrors ρ W s t (x s) (y t))
    (hn : ∀ a s' t', x s = .ok a s' → View ρ A s' t' → Fresh ρ s' t' → Effect ρ W s s' t t' →
      Mirrors ρ W s' t' (f a s') (g (rename ρ a) t')) :
    Mirrors ρ W s t ((x >>= f) s) ((y >>= g) t) := by
  rw [bind_apply, bind_apply]
  generalize hx : x s = r at h
  generalize y t = r' at h
  cases h with
  | @ok a s' t' he =>
    have hrest := hn a s' t' hx (hview.after hf he) (hf.after he) he
    dsimp only
    generalize f a s' = q at hrest
    generalize g (rename ρ a) t' = q' at hrest
    cases hrest with
    | ok he' => exact .ok (he.trans hview hf he' fun l hl _ => hl)
    | error he' => exact .error (he.trans hview hf he' fun l hl _ => hl)
  | error he => exact .error he

include hA

lemma effect_same : Effect ρ W s s t t :=
  (Effect.refl hf).mono hview hf (Set.empty_subset W) fun _ hl _ => hA hl

lemma mirrors_pure {a b : α} (h : b = rename ρ a) :
    Mirrors ρ W s t ((Pure.pure a : Op α) s) ((Pure.pure b : Op α) t) := by
  rw [h]
  exact .ok (effect_same hview hf hA)

lemma mirrors_throw (e : Stop) :
    Mirrors ρ W s t ((MonadExcept.throw e : Op α) s) ((MonadExcept.throw e : Op α) t) :=
  .error (effect_same hview hf hA)

/-- Both begin with the same result that needs no store. -/
lemma mirrors_same {γ : Type} {x : Except Stop γ} {f g : γ → Op β}
    (hn : ∀ a, x = .ok a → Mirrors ρ W s t (f a s) (g a t)) :
    Mirrors ρ W s t (((liftM x : Op γ) >>= f) s) (((liftM x : Op γ) >>= g) t) := by
  cases x with
  | ok a => exact hn a rfl
  | error e => exact .error (effect_same hview hf hA)

/-! ### Slots and frames -/

omit hf hA in
lemma frameSize_of_view (hf : Fresh ρ s t) (f : FrameId) :
    t.frameSize (rename ρ f) = s.frameSize f := by
  by_cases hlt : f.index < s.frames.size
  · exact (hview.frame hlt).1
  · have hs : s.frames.size ≤ f.index := Nat.not_lt.mp hlt
    have ht : t.frames.size ≤ ρ .frames f.index := hf.le (T := .frames) hs
    simp only [frameSize, slots, frame, index_rename_frame, Array.getElem?_eq_none hs,
      Array.getElem?_eq_none ht]

end Parts

end Op

end Flowgraph
