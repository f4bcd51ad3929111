import Mathlib.Data.Fintype.Sum
import Flowgraph.Proofs.Apart.Footprint
import Flowgraph.Proofs.Names.Chains

/-!
# From one store to another

A step that has the same effect in all stores that look the same from its footprint has the same
effect also in stores where things have other names, because steps do not depend on names.
-/

namespace Flowgraph

open Named Store

variable {π ρ σ : Renaming} {s s' t t' : Store} {A W : Set Location} {p : Program} {c c' : Chain}

/-! ### Renamed stores seen from locations -/

namespace Store.Renamed

variable (h : s.Renamed π t)

include h

lemma content (l : Location) : t.content (rename π l) = rename π (s.content l) := by
  cases l with
  | slot f i => exact congrArg Content.value (h.slot? f i)
  | element b i => exact congrArg Content.value (h.target? b i)
  | dict d => exact congrArg Content.dict (h.dicts.get d.index)
  | channel c => exact congrArg Content.channel (h.channels.get c.index)
  | output => exact congrArg Content.output h.output

lemma shape? (T : Table) (k : Nat) : t.shape? T (π T k) = rename π (s.shape? T k) := by
  cases T with
  | frames =>
    simp only [Store.shape?, h.frames.get k]
    cases s.frames[k]? with
    | none => rfl
    | some f => simp [rename]
  | blocks =>
    simp only [Store.shape?, h.blocks.get k]
    cases s.blocks[k]? with
    | none => rfl
    | some b => simp [rename]
  | dicts =>
    simp only [Store.shape?, h.dicts.get k]
    cases s.dicts[k]? <;> rfl
  | channels =>
    simp only [Store.shape?, h.channels.get k]
    cases s.channels[k]? <;> rfl

end Store.Renamed

/-! ### Permutations of names -/

/-- New names that are kept apart are given by a permutation, which concerns no other names than
the first `m`. -/
lemma exists_perm {n m : Nat} {f : Nat → Nat} (hlt : ∀ k, k < n → f k < m)
    (hinj : ∀ j k, j < n → k < n → f j = f k → j = k) :
    ∃ e : Equiv.Perm Nat, (∀ k, k < n → e k = f k) ∧ ∀ k, m ≤ k → e k = k := by
  classical
  have hnm : n ≤ m := by
    have hcard := Fintype.card_le_of_injective (fun i : Fin n => (⟨f i, hlt i i.isLt⟩ : Fin m))
      fun i j hij => Fin.ext (hinj _ _ i.isLt j.isLt (Fin.mk.inj hij))
    simpa using hcard
  let g : Fin m → Fin m := fun i => if h : i.val < n then ⟨f i, hlt i h⟩ else i
  obtain ⟨e, he⟩ := Finset.exists_equiv_extend_of_card_eq (α := Fin m) (β := Fin m)
    (t := Finset.univ) (by simp) (s := Finset.univ.filter fun i => i.val < n) (f := g)
    (Finset.subset_univ _) (by
      intro i hi j hj hij
      simp only [Finset.coe_filter, Finset.mem_univ, true_and, Set.mem_ofPred_eq] at hi hj
      simp only [g, dif_pos hi, dif_pos hj, Fin.mk.injEq] at hij
      exact Fin.ext (hinj _ _ hi hj hij))
  let e₀ : Equiv.Perm (Fin m) := e.trans (Equiv.subtypeUnivEquiv Finset.mem_univ)
  refine ⟨e₀.extendDomain Fin.equivSubtype, fun k hk => ?_, fun k hk => ?_⟩
  · have hm : k < m := Nat.lt_of_lt_of_le hk hnm
    have hval : e₀ ⟨k, hm⟩ = ⟨f k, hlt k hk⟩ := by
      have hkn := he ⟨k, hm⟩ (by simpa using hk)
      simp only [g, dif_pos hk] at hkn
      exact hkn
    have happly := Equiv.Perm.extendDomain_apply_subtype e₀ Fin.equivSubtype (b := k) hm
    exact happly.trans (congrArg Fin.val hval)
  · exact Equiv.Perm.extendDomain_apply_not_subtype _ _ (Nat.not_lt.mpr hk)

/-- Whatever is in a table can be moved back. -/
lemma exists_moved {α : Type} [Named α] {π π' : Renaming} (hπ : π'.then π = .id) (b : Array α)
    {f : Nat → Nat} (hf : ∀ k, k < b.size ↔ f k < b.size) : ∃ a, Moved π f a b := by
  refine ⟨Array.ofFn fun i : Fin b.size =>
    have := (hf i).mp i.isLt
    rename π' b[f i], by simp, fun k => ?_⟩
  by_cases hk : k < b.size
  · have hfk := (hf k).mp hk
    rw [Array.getElem?_eq_getElem hfk, Array.getElem?_eq_getElem (by simpa using hk)]
    simp [hπ]
  · rw [Array.getElem?_eq_none (Nat.not_lt.mp (mt (hf k).mpr hk)),
      Array.getElem?_eq_none (by simpa using Nat.not_lt.mp hk)]
    rfl

/-- A permutation of names, for each table. -/
abbrev Permutation := Table → Equiv.Perm Nat

namespace Permutation

/-- A permutation as a renaming. -/
def forth (e : Permutation) : Renaming := fun T k => e T k

/-- The renaming back. -/
def back (e : Permutation) : Renaming := fun T k => (e T).symm k

variable {e : Permutation}

lemma injective (e : Permutation) : e.forth.Injective := fun T _ _ h => (e T).injective h

lemma rename_forth_back {α : Type} [Named α] (e : Permutation) (a : α) :
    rename e.forth (rename e.back a) = a := by
  have hid : e.back.then e.forth = .id := by
    funext T k
    exact (e T).apply_symm_apply k
  rw [rename_rename, hid, rename_id]

lemma rename_injective {α : Type} [Named α] {a b : α}
    (h : rename e.forth a = rename e.forth b) : a = b := by
  have hid : e.forth.then e.back = .id := by
    funext T k
    exact (e T).symm_apply_apply k
  have hback := congrArg (rename e.back) h
  rwa [rename_rename, rename_rename, hid, rename_id, rename_id] at hback

/-- What keeps all names from some number on keeps the others among themselves. -/
lemma lt_iff {n : Table → Nat} (he : ∀ T k, n T ≤ k → e T k = k) (T : Table) (k : Nat) :
    k < n T ↔ e T k < n T := by
  constructor
  · intro hk
    by_contra hge
    rw [(e T).injective (he T (e T k) (Nat.not_lt.mp hge))] at hge
    exact hge hk
  · intro hk
    by_contra hge
    rw [he T k (Nat.not_lt.mp hge)] at hk
    exact hge hk

/-- A renaming by a permutation can be undone. -/
lemma exists_renamed {t : Store} (he : ∀ T k, t.size T ≤ k → e T k = k)
    (hg : e .frames globalFrame.index = globalFrame.index) :
    ∃ u : Store, u.Renamed e.forth t := by
  have hid : e.back.then e.forth = .id := by
    funext T k
    exact (e T).apply_symm_apply k
  obtain ⟨frames, hframes⟩ := exists_moved hid t.frames (lt_iff he .frames)
  obtain ⟨blocks, hblocks⟩ := exists_moved hid t.blocks (lt_iff he .blocks)
  obtain ⟨dicts, hdicts⟩ := exists_moved hid t.dicts (lt_iff he .dicts)
  obtain ⟨channels, hchannels⟩ := exists_moved hid t.channels (lt_iff he .channels)
  exact ⟨⟨frames, blocks, dicts, channels, t.output⟩, e.injective, hg, hframes, hblocks, hdicts,
    hchannels, rfl⟩

end Permutation

/-! ### Effects in renamed stores -/

/-- An effect is the same in renamed stores. -/
lemma Store.Effect.renamed {u u' : Store} {e : Permutation} (h : Effect σ W s s' u u')
    (hu : u.Renamed e.forth t) (hu' : u'.Renamed e.forth t')
    (he : ∀ T k, t.size T ≤ k → e T k = k) : Effect (σ.then e.forth) W s s' t t' where
  here := h.here
  there := by
    refine ⟨fun T => ?_, fun T k hk => ?_, fun l hl hseen => ?_⟩
    · rw [hu.size_eq, hu'.size_eq]
      exact h.there.grows T
    · obtain ⟨k, rfl⟩ := (e T).surjective k
      have hk : k < u.size T := by rwa [← hu.size_eq, Permutation.lt_iff he]
      exact (hu'.shape? T k).trans ((congrArg _ (h.there.shape T k hk)).trans (hu.shape? T k).symm)
    · obtain ⟨k, rfl⟩ : ∃ k, l = rename e.forth k :=
        ⟨rename e.back l, (Permutation.rename_forth_back e l).symm⟩
      have hk : Within u.size k := fun T j hj => by
        rw [← hu.size_eq, Permutation.lt_iff he]
        exact hl T _ (Location.mentions_rename.mpr ⟨j, hj, rfl⟩)
      have hseen' : k ∉ Seen σ W s := by
        rintro ⟨j, hj, hjw, rfl⟩
        exact hseen ⟨j, hj, hjw, rename_rename _ _ _⟩
      rw [hu'.content, hu.content, h.there.content k hk hseen']
  created T := by
    rw [hu.size_eq, hu'.size_eq]
    exact h.created T
  shape T k hk := by
    have hshape := hu'.shape? T (σ T k)
    rw [h.shape T k hk, rename_rename] at hshape
    exact hshape
  content l hl := by
    rw [← rename_rename, hu'.content, h.content l hl, rename_rename]

/-! ### Footprints of steps -/

/-- The next step of a chain reads and writes at most what is at some locations: it does the same in
every store that looks the same from there. -/
def Chain.Confined (p : Program) (A W : Set Location) (c : Chain) (s : Store) : Prop :=
  ∀ c' s', c.next p s = some (c', s') → ∀ σ t, Keeps σ s → Fresh σ s t → View σ A s t →
    ∃ t', c.next p t = some (rename σ c', t') ∧ Effect σ W s s' t t'

/-- What a step does in a store it also does in stores where things have other names. -/
theorem Chain.Confined.transfer (hp : p.Loaded) (hn : p.natives.Blind)
    (h : c.Confined p A W s) (hs : s.Closed) (hc : Flowgraph.Within s.size c)
    (hnext : c.next p s = some (c', s')) (hfresh : Fresh ρ s t) (hview : View ρ A s t) :
    ∃ t', (rename ρ c).next p t = some (rename ρ c', t') ∧ Effect ρ W s s' t t' := by
  -- In `u` the names of `s` remain, and `e` takes `u` to `t`.
  obtain ⟨e, he⟩ : ∃ e : Permutation, ∀ T, (∀ k, k < s.size T → e T k = ρ T k) ∧
      ∀ k, t.size T ≤ k → e T k = k :=
    ⟨_, fun T => (exists_perm (fun k hk => hview.lt hk) (hview.injective T)).choose_spec⟩
  obtain ⟨he, hfix⟩ := forall_and.mp he
  have hanchored : e .frames globalFrame.index = globalFrame.index :=
    (he .frames _ hs.anchored).trans hview.anchored
  obtain ⟨u, hu⟩ := Permutation.exists_renamed hfix hanchored
  let σ : Renaming := fun T k => if k < s.size T then k else t.size T + (k - s.size T)
  have hkeeps : Keeps σ s := fun T k hk => if_pos hk
  have hσ : Fresh σ s u := fun T j => by
    simp only [σ, if_neg (Nat.not_lt.mpr (Nat.le_add_right _ _)), hu.size_eq,
      Nat.add_sub_cancel_left]
  have hthen : σ.then e.forth = ρ := by
    funext T k
    by_cases hk : k < s.size T
    · simp only [Renaming.then, Permutation.forth, hkeeps T k hk, he T k hk]
    · obtain ⟨j, rfl⟩ := Nat.exists_eq_add_of_le (Nat.not_lt.mp hk)
      rw [Renaming.then, hσ, ← hu.size_eq, Permutation.forth, hfix T _ (by omega), hfresh]
  have hlooks : View σ A s u := by
    refine ⟨hkeeps .frames _ hs.anchored, fun T j k hj hk hjk => ?_, fun T k hk => ?_,
      fun l hl hw => ?_⟩
    · rwa [hkeeps T j hj, hkeeps T k hk] at hjk
    · refine Permutation.rename_injective (e := e) ?_
      rw [← hu.shape?, rename_rename, hthen, ← hview.shape T k hk, ← hthen]
      rfl
    · refine Permutation.rename_injective (e := e) ?_
      rw [← hu.content, rename_rename, rename_rename, hthen, hview.content l hl hw]
  obtain ⟨u', hu', heffect⟩ := h c' s' hnext σ u hkeeps hσ hlooks
  obtain ⟨-, hrenamed⟩ := Chain.next_rename e.injective (congrArg FrameId.mk hanchored) hp hn hu'
  obtain ⟨t', ht', hrenamed'⟩ := hrenamed t hu fun T k hk _ => hfix T k (by rwa [hu.size_eq])
  refine ⟨t', ?_, hthen ▸ heffect.renamed hu hrenamed' hfix⟩
  rw [rename_rename, hthen] at ht'
  rwa [hc.rename_eq (σ := e.forth) fun T k hk => (he T k hk).symm]

end Flowgraph
