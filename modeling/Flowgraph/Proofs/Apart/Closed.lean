import Mathlib.Logic.Equiv.Basic
import Flowgraph.Proofs.Apart.Footprint
import Flowgraph.Proofs.Names.Chains

/-!
# Steps make up no names

What does not depend on names cannot mention a name that nobody has given out: if it did, it would
mention another one after two such names were exchanged.
-/

namespace Flowgraph

open Named Store

variable {π : Renaming} {s s' : Store} {n : Table → Nat} {p : Program}

/-- What stays the same whenever the names that were given out remain mentions no others. -/
lemma within_of_rename_eq {α : Type} [Named α] {a : α}
    (h : ∀ π : Renaming, π.Injective → (∀ T k, k < n T → π T k = k) → rename π a = a) :
    Within n a := by
  intro T k hk
  by_contra hlt
  let π : Renaming := fun T' j => if T' = T then Equiv.swap k (k + 1) j else j
  have hinj : π.Injective := by
    intro T' i j hij
    by_cases hT : T' = T
    · simp only [π, if_pos hT] at hij
      exact (Equiv.swap k (k + 1)).injective hij
    · simpa only [π, if_neg hT] using hij
  have hfix : ∀ T' j, j < n T' → π T' j = j := by
    intro T' j hj
    by_cases hT : T' = T
    · subst hT
      simp only [π, if_true]
      exact Equiv.swap_apply_of_ne_of_ne (by omega) (by omega)
    · simp only [π, if_neg hT]
  have heq := (rename_eq_iff π .id a).mp ((h π hinj hfix).trans (rename_id a).symm) T k hk
  simp only [π, if_true, Equiv.swap_apply_left, Renaming.id] at heq
  omega

lemma Moved.rename_self {α : Type} [Named α] {f : Nat → Nat} {a : Array α} (h : Moved π f a a)
    (hf : ∀ k, k < a.size → f k = k) : rename π a = a := by
  refine Array.ext_getElem? fun k => ?_
  rw [rename_array, Array.getElem?_map]
  by_cases hk : k < a.size
  · have hget := h.get k
    rw [hf k hk] at hget
    exact hget.symm
  · rw [Array.getElem?_eq_none (Nat.not_lt.mp hk)]
    rfl

lemma Moved.refl {α : Type} [Named α] {f : Nat → Nat} {a : Array α} (h : rename π a = a)
    (hf : ∀ k, k < a.size → f k = k) (hinj : Function.Injective f) : Moved π f a a where
  size := rfl
  get k := by
    have hmap : rename π a[k]? = a[k]? := by
      have hk := congrArg (·[k]?) h
      rwa [rename_array, Array.getElem?_map] at hk
    rw [hmap]
    by_cases hk : k < a.size
    · rw [hf k hk]
    · have hfk : ¬f k < a.size := fun hlt => hk (by rwa [hinj (hf (f k) hlt)] at hlt)
      rw [Array.getElem?_eq_none (Nat.not_lt.mp hk), Array.getElem?_eq_none (Nat.not_lt.mp hfk)]

namespace Store

/-- A store that mentions no other names is the same when these remain. -/
lemma Closed.renamed (h : s.Closed) (hπ : π.Injective)
    (hfix : ∀ T k, k < s.size T → π T k = k) : s.Renamed π s where
  injective := hπ
  anchored := hfix .frames _ h.anchored
  frames := .refl (h.frames.rename_self hfix) (hfix .frames) (hπ _)
  blocks := .refl (h.blocks.rename_self hfix) (hfix .blocks) (hπ _)
  dicts := .refl (h.dicts.rename_self hfix) (hfix .dicts) (hπ _)
  channels := .refl (h.channels.rename_self hfix) (hfix .channels) (hπ _)
  output := rfl

/-- What is the same whenever the names that were given out remain mentions no others. -/
lemma closed_of_renamed (hg : globalFrame.index < s.frames.size)
    (h : ∀ π : Renaming, π.Injective → (∀ T k, k < s.size T → π T k = k) → s.Renamed π s) :
    s.Closed where
  anchored := hg
  frames := within_of_rename_eq fun π hπ hfix => (h π hπ hfix).frames.rename_self (hfix .frames)
  blocks := within_of_rename_eq fun π hπ hfix => (h π hπ hfix).blocks.rename_self (hfix .blocks)
  dicts := within_of_rename_eq fun π hπ hfix => (h π hπ hfix).dicts.rename_self (hfix .dicts)
  channels := within_of_rename_eq fun π hπ hfix =>
    (h π hπ hfix).channels.rename_self (hfix .channels)

end Store

/-- A chain mentions no names but those that have been given out, and neither does the store: so it
is after the next step. -/
theorem Chain.closed_next (hp : p.Loaded) (hn : p.natives.Blind) {c c' : Chain}
    (h : c.next p s = some (c', s')) (hs : s.Closed) (hc : Flowgraph.Within s.size c) :
    s.Grows s' ∧ s'.Closed ∧ Flowgraph.Within s'.size c' := by
  have hgrows : s.Grows s' :=
    (next_rename (π := .id) (fun _ _ _ h => h) rfl hp hn h).1
  have hsame : ∀ π : Renaming, π.Injective → (∀ T k, k < s'.size T → π T k = k) →
      rename π c' = c' ∧ s'.Renamed π s' := by
    intro π hπ hfix
    have hfixs : ∀ T k, k < s.size T → π T k = k := fun T k hk =>
      hfix T k (Nat.lt_of_lt_of_le hk (hgrows T))
    have hg : rename π globalFrame = globalFrame :=
      congrArg FrameId.mk (hfixs .frames _ hs.anchored)
    obtain ⟨t', ht', hr⟩ :=
      (next_rename hπ hg hp hn h).2 s (hs.renamed hπ hfixs) fun T k _ hk => hfix T k hk
    rw [hc.rename_self hfixs, h] at ht'
    obtain ⟨hc', rfl⟩ := Prod.mk.inj (Option.some.inj ht')
    exact ⟨hc'.symm, hr⟩
  refine ⟨hgrows, ?_, within_of_rename_eq fun π hπ hfix => (hsame π hπ hfix).1⟩
  refine closed_of_renamed ?_ fun π hπ hfix => (hsame π hπ hfix).2
  exact Nat.lt_of_lt_of_le hs.anchored (hgrows .frames)

/-- The same is true of an operation that does not depend on names. -/
theorem Op.closed_of_follows {α : Type} [Named α] {x : Op α}
    (hx : ∀ π : Renaming, π.Injective → rename π globalFrame = globalFrame → Op.Follows π x x)
    (hs : s.Closed) : s.Grows (x.after s) ∧ (x.after s).Closed ∧
      ∀ a s', x s = .ok a s' → Within s'.size a := by
  have hgrows : s.Grows (x.after s) := (hx .id (fun _ _ _ h => h) rfl).grows s
  have hsame : ∀ π : Renaming, π.Injective → (∀ T k, k < (x.after s).size T → π T k = k) →
      Op.Matches π (x s) (x s) := by
    intro π hπ hfix
    have hfixs : ∀ T k, k < s.size T → π T k = k := fun T k hk =>
      hfix T k (Nat.lt_of_lt_of_le hk (hgrows T))
    have hg : rename π globalFrame = globalFrame :=
      congrArg FrameId.mk (hfixs .frames _ hs.anchored)
    exact (hx π hπ hg).agrees s s (hs.renamed hπ hfixs) fun T k _ hk => hfix T k hk
  have hg : globalFrame.index < (x.after s).frames.size :=
    Nat.lt_of_lt_of_le hs.anchored (hgrows .frames)
  rw [after] at hgrows hsame hg ⊢
  cases hr : x s with
  | ok a s' =>
    rw [hr] at hgrows hsame hg
    refine ⟨hgrows, ?_, fun b t hb => ?_⟩
    · exact closed_of_renamed hg fun π hπ hfix => (hsame π hπ hfix).of_ok.2
    · cases hb
      exact within_of_rename_eq fun π hπ hfix => (hsame π hπ hfix).of_ok.1.symm
  | error e s' =>
    rw [hr] at hgrows hsame hg
    refine ⟨hgrows, ?_, fun b t hb => by cases hb⟩
    exact closed_of_renamed hg fun π hπ hfix => (hsame π hπ hfix).of_error

end Flowgraph
