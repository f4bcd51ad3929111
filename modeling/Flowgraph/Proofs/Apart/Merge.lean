import Flowgraph.Proofs.Apart.Closed

/-!
# Stores that several jobs work in

Jobs that start from one store and keep apart may be done in a common store, in any order and by
turns. Every job finds there what it would find if it were alone, under names of its own for what
it has created. So it makes no difference for the common store in which order the jobs were done:
two such stores are the same up to the names of what was created.
-/

namespace Flowgraph

open Named Store

/-- What a job may read and write of what is there before. -/
structure Footprint where
  reads : Set Location
  writes : Set Location

namespace Footprint

/-- The locations that a job may touch: those in its footprint, and what it has created. -/
def touched (F : Footprint) (s₀ : Store) : Set Location :=
  {l | Within s₀.size l → l ∈ F.reads ∨ l ∈ F.writes}

/-- The locations that a job may write: those in its footprint, and what it has created. -/
def written (F : Footprint) (s₀ : Store) : Set Location := {l | Within s₀.size l → l ∈ F.writes}

/-- What one job writes the other one neither reads nor writes. -/
def Spares (F G : Footprint) : Prop := ∀ l ∈ F.writes, l ∉ G.reads ∧ l ∉ G.writes

end Footprint

/-- What a job has of a common store: the store as it would be if the job were alone, and the names
that things in it have in the common store. -/
structure Share where
  names : Renaming
  store : Store

variable {s₀ s s' t t' : Store} {F : Nat → Footprint} {shares : Nat → Option Share} {i j : Nat}
  {h h' : Share} {ρ σ : Renaming} {W : Set Location}

/-- What was there before keeps its name, and what was created has other names. -/
structure Share.Apart (s₀ : Store) (h : Share) : Prop where
  grows : s₀.Grows h.store
  keeps : Keeps h.names s₀
  beyond : ∀ T k, s₀.size T ≤ k → k < h.store.size T → s₀.size T ≤ h.names T k

/-- A job that has not begun has the store as it was. -/
lemma Share.Apart.base (s₀ : Store) : Share.Apart s₀ ⟨.id, s₀⟩ :=
  ⟨.refl s₀, fun _ _ _ => rfl, fun _ _ h _ => h⟩

/-- A common store that jobs with some footprints have shares of. -/
structure Merged (s₀ : Store) (F : Nat → Footprint) (shares : Nat → Option Share) (t : Store) :
    Prop where
  shape : ∀ T k, k < s₀.size T → t.shape? T k = s₀.shape? T k
  closed : ∀ i h, shares i = some h → h.store.Closed
  apart : ∀ i h, shares i = some h → h.Apart s₀
  view : ∀ i h, shares i = some h → View h.names ((F i).touched s₀) h.store t
  distinct : ∀ i j h h' T k l, i ≠ j → shares i = some h → shares j = some h' →
    s₀.size T ≤ k → k < h.store.size T → s₀.size T ≤ l → l < h'.store.size T →
    h.names T k ≠ h'.names T l
  covered : ∀ T x, s₀.size T ≤ x → x < t.size T → ∃ i h k, shares i = some h ∧
    s₀.size T ≤ k ∧ k < h.store.size T ∧ h.names T k = x
  untouched : ∀ l, Within s₀.size l → (∀ i h, shares i = some h → l ∉ (F i).writes) →
    t.content l = s₀.content l

lemma Footprint.touched_of_written {G : Footprint} {l : Location} (hl : l ∈ G.written s₀) :
    l ∈ G.touched s₀ := fun hw => .inr (hl hw)

/-- What was there before keeps its names when a store goes on. -/
lemma seen_extended : Seen (extended ρ s t) W s = Seen ρ W s := by
  refine Set.ext fun l => exists_congr fun k => and_congr_right
    fun _ => and_congr_right fun hk => ?_
  rw [hk.rename_eq fun T j hj => extended_of_lt hj]

/-- A location is spared if it is neither what the job created nor what it may write of what was
there before. -/
lemma Share.Apart.not_seen {G : Footprint} (ha : h.Apart s₀) (ha' : h'.Apart s₀)
    (hdistinct : ∀ T k l, s₀.size T ≤ k → k < h.store.size T → s₀.size T ≤ l →
      l < h'.store.size T → h.names T k ≠ h'.names T l)
    {l : Location} (hl : Within h'.store.size l) (hspared : Within s₀.size l → l ∉ G.writes) :
    rename h'.names l ∉ Seen h.names (G.written s₀) h.store := by
  rintro ⟨k, hk, hkw, heq⟩
  rcases Location.of_rename_eq heq with ⟨rfl, hall⟩ | ⟨T, a, b, hla, hkb, hab, he⟩
  · exact hspared (hall _) (hk (hall _))
  · have hla' := hl T a hla
    have hkb' := hkw T b hkb
    by_cases ha₀ : a < s₀.size T <;> by_cases hb₀ : b < s₀.size T
    · rw [ha'.keeps T a ha₀, ha.keeps T b hb₀] at hab
      have hw := (Location.within_iff hla).mpr ha₀
      cases he hab
      exact hspared hw (hk hw)
    · have hge := ha.beyond T b (Nat.not_lt.mp hb₀) hkb'
      rw [ha'.keeps T a ha₀] at hab
      omega
    · have hge := ha'.beyond T a (Nat.not_lt.mp ha₀) hla'
      rw [ha.keeps T b hb₀] at hab
      omega
    · exact hdistinct T b a (Nat.not_lt.mp hb₀) hkb' (Nat.not_lt.mp ha₀) hla' hab.symm

namespace Merged

lemma init (s₀ : Store) (F : Nat → Footprint) : Merged s₀ F (fun _ => none) s₀ where
  shape _ _ _ := rfl
  closed _ _ h := by cases h
  apart _ _ h := by cases h
  view _ _ h := by cases h
  distinct _ _ _ _ _ _ _ _ h := by cases h
  covered _ _ h h' := absurd h (Nat.not_le.mpr h')
  untouched _ _ _ := rfl

variable (hm : Merged s₀ F shares t)

include hm

lemma grows : s₀.Grows t := by
  intro T
  by_contra hlt
  have hshape := hm.shape T (t.size T) (by omega)
  rw [shape?_eq_none (Nat.le_refl _)] at hshape
  have hsome := (isSome_shape? s₀ T (t.size T)).mpr (by omega)
  rw [← hshape] at hsome
  cases hsome

/-- From locations that nobody may write, the common store looks as in the beginning. -/
lemma view_untouched (hs₀ : s₀.Closed) {A : Set Location}
    (hA : ∀ l ∈ A, ∀ i h, shares i = some h → l ∉ (F i).writes) (hσ : Keeps σ s₀) :
    View σ A s₀ t where
  anchored := hσ .frames _ hs₀.anchored
  injective T j k hj hk hjk := by rwa [hσ T j hj, hσ T k hk] at hjk
  shape T k hk := by
    rw [hσ T k hk, hm.shape T k hk, (hs₀.shape? T k).rename_self hσ]
  content l hl hw := by
    rw [hw.rename_self hσ, (hs₀.content l).rename_self hσ]
    exact hm.untouched l hw fun i h hi => hA l hl i h hi

/-! ### Beginning -/

omit hm in
lemma cases_update {h : Share} {k : Nat} {g : Share}
    (hk : Function.update shares i (some h) k = some g) :
    k = i ∧ g = h ∨ k ≠ i ∧ shares k = some g := by
  by_cases hki : k = i
  · subst hki
    rw [Function.update_self] at hk
    exact .inl ⟨rfl, (Option.some.inj hk).symm⟩
  · rw [Function.update_of_ne hki] at hk
    exact .inr ⟨hki, hk⟩

/-- A job that has not begun may begin, with the store as it was. -/
lemma join (hs₀ : s₀.Closed) (hj : shares j = none)
    (hspares : ∀ i h, i ≠ j → shares i = some h → (F i).Spares (F j)) :
    Merged s₀ F (Function.update shares j (some ⟨.id, s₀⟩)) t := by
  have hne : ∀ i h, shares i = some h → i ≠ j := by
    rintro i h hi rfl
    rw [hj] at hi
    cases hi
  constructor
  case shape => exact hm.shape
  case closed =>
    intro i h hi
    rcases cases_update hi with ⟨rfl, rfl⟩ | ⟨-, hi⟩
    · exact hs₀
    · exact hm.closed i h hi
  case apart =>
    intro i h hi
    rcases cases_update hi with ⟨rfl, rfl⟩ | ⟨-, hi⟩
    · exact .base s₀
    · exact hm.apart i h hi
  case view =>
    intro i h hi
    rcases cases_update hi with ⟨rfl, rfl⟩ | ⟨-, hi⟩
    · have hview := hm.view_untouched hs₀ (A := {l | Within s₀.size l ∧ l ∈ (F i).touched s₀})
        (fun l hl k h hk hw => ?_) (σ := .id) fun _ _ _ => rfl
      · exact ⟨hview.anchored, hview.injective, hview.shape,
          fun l hl hw => hview.content l ⟨hw, hl⟩ hw⟩
      · obtain ⟨hr, hw'⟩ := hspares k h (hne k h hk) hk l hw
        exact (hl.2 hl.1).elim hr hw'
    · exact hm.view i h hi
  case distinct =>
    intro i k h h' T a b hik hi hk ha ha' hb hb'
    rcases cases_update hi with ⟨rfl, rfl⟩ | ⟨-, hi⟩
    · exact absurd ha (Nat.not_le.mpr ha')
    · rcases cases_update hk with ⟨rfl, rfl⟩ | ⟨-, hk⟩
      · exact absurd hb (Nat.not_le.mpr hb')
      · exact hm.distinct i k h h' T a b hik hi hk ha ha' hb hb'
  case covered =>
    intro T x hx hxt
    obtain ⟨i, h, k, hi, hk⟩ := hm.covered T x hx hxt
    exact ⟨i, h, k, by rwa [Function.update_of_ne (hne i h hi)], hk⟩
  case untouched =>
    refine fun l hl hw => hm.untouched l hl fun i h hi => hw i h ?_
    rwa [Function.update_of_ne (hne i h hi)]

/-! ### Going on -/

/-- The share of a job after a step, in the common store after it. -/
abbrev advanced (h : Share) (t s' : Store) : Share := ⟨extended h.names h.store t, s'⟩

section Advanced

variable {T : Table} {k : Nat}

omit hm in
lemma names_advanced_of_lt (hk : k < h.store.size T) : (advanced h t s').names T k = h.names T k :=
  extended_of_lt hk

omit hm in
lemma names_advanced_of_le (hk : h.store.size T ≤ k) :
    (advanced h t s').names T k = t.size T + (k - h.store.size T) :=
  extended_of_le hk

/-- What is created gets names that are new in the common store. -/
lemma apart_advanced (hi : shares i = some h) (hs : h.store.Grows s') :
    (advanced h t s').Apart s₀ := by
  have ha := hm.apart i h hi
  refine ⟨ha.grows.trans hs, fun T k hk => ?_, fun T k hk _ => ?_⟩
  · rw [names_advanced_of_lt (Nat.lt_of_lt_of_le hk (ha.grows T)), ha.keeps T k hk]
  · by_cases hlt : k < h.store.size T
    · rw [names_advanced_of_lt hlt]
      exact ha.beyond T k hk hlt
    · have hT := hm.grows T
      rw [names_advanced_of_le (Nat.not_lt.mp hlt)]
      omega

/-- Names that are new differ from those of what other jobs have created. -/
lemma distinct_advanced (hi : shares i = some h) (hj : shares j = some h') (hij : i ≠ j) {a b : Nat}
    (ha : s₀.size T ≤ a) (hb : s₀.size T ≤ b) (hb' : b < h'.store.size T) :
    (advanced h t s').names T a ≠ h'.names T b := by
  by_cases hlt : a < h.store.size T
  · rw [names_advanced_of_lt hlt]
    exact hm.distinct i j h h' T a b hij hi hj ha hlt hb hb'
  · have hthere := (hm.view j h' hj).lt hb'
    rw [names_advanced_of_le (Nat.not_lt.mp hlt)]
    omega

/-- Whatever is in the common store has been created by a job. -/
lemma covered_advanced (hi : shares i = some h) (hs : h.store.Grows s')
    (hcreated : ∀ T, t'.size T + h.store.size T = t.size T + s'.size T) {x : Nat}
    (hx : s₀.size T ≤ x) (hxt : x < t'.size T) :
    ∃ j g k, Function.update shares i (some (advanced h t s')) j = some g ∧
      s₀.size T ≤ k ∧ k < g.store.size T ∧ g.names T k = x := by
  by_cases hlt : x < t.size T
  · obtain ⟨j, g, a, hj, ha, ha', rfl⟩ := hm.covered T x hx hlt
    by_cases hji : j = i
    · subst hji
      cases hi.symm.trans hj
      exact ⟨j, _, a, Function.update_self .., ha, Nat.lt_of_lt_of_le ha' (hs T),
        names_advanced_of_lt ha'⟩
    · exact ⟨j, g, a, by rwa [Function.update_of_ne hji], ha, ha', rfl⟩
  · have hsize := hcreated T
    have hT := (hm.apart i h hi).grows T
    refine ⟨i, _, h.store.size T + (x - t.size T), Function.update_self .., by omega, ?_, ?_⟩
    · change _ < s'.size T
      omega
    · rw [names_advanced_of_le (Nat.le_add_right _ _)]
      omega

end Advanced

section Touched

variable (hi : shares i = some h) (ht : t.Touches (Seen h.names ((F i).written s₀) h.store) t')

include hi ht

/-- A job that is spared does not notice what another one does. -/
lemma view_spared (hj : shares j = some h') (hij : i ≠ j) (hspares : (F i).Spares (F j)) :
    View h'.names ((F j).touched s₀) h'.store t' := by
  have hv := hm.view j h' hj
  refine ⟨hv.anchored, hv.injective, fun T k hk => ?_, fun l hl hw => ?_⟩
  · rw [ht.shape T _ (hv.lt hk), hv.shape T k hk]
  · have hspared : Within s₀.size l → l ∉ (F i).writes := fun hw₀ hwi => by
      obtain ⟨hr, hw'⟩ := hspares l hwi
      exact (hl hw₀).elim hr hw'
    have hns := (hm.apart i h hi).not_seen (hm.apart j h' hj)
      (fun T a b => hm.distinct i j h h' T a b hij hi hj) hw hspared
    rw [ht.content _ (hv.within hw) hns, hv.content l hl hw]

/-- What nobody may write is still as in the beginning. -/
lemma content_spared {l : Location} (hl : Within s₀.size l)
    (hw : ∀ j g, shares j = some g → l ∉ (F j).writes) : t'.content l = s₀.content l := by
  have hns := (hm.apart i h hi).not_seen (.base s₀)
    (fun T a b _ _ hb hb' => absurd hb (Nat.not_le.mpr hb')) hl fun _ => hw i h hi
  rw [rename_id] at hns
  rw [ht.content l (hl.mono hm.grows) hns, hm.untouched l hl hw]

end Touched

/-- When a job makes a step, the others do not notice. -/
lemma step (hi : shares i = some h)
    (hspares : ∀ k g, k ≠ i → shares k = some g → (F i).Spares (F k))
    (hclosed : s'.Closed)
    (he : Effect (extended h.names h.store t) ((F i).written s₀) h.store s' t t') :
    Merged s₀ F (Function.update shares i (some (advanced h t s'))) t' := by
  have hthere := he.there
  rw [seen_extended] at hthere
  constructor
  case shape =>
    intro T k hk
    rw [hthere.shape T k (Nat.lt_of_lt_of_le hk (hm.grows T)), hm.shape T k hk]
  case closed =>
    intro k g hk
    rcases cases_update hk with ⟨rfl, rfl⟩ | ⟨-, hk⟩
    · exact hclosed
    · exact hm.closed k g hk
  case apart =>
    intro k g hk
    rcases cases_update hk with ⟨rfl, rfl⟩ | ⟨-, hk⟩
    · exact hm.apart_advanced hi he.here.grows
    · exact hm.apart k g hk
  case view =>
    intro k g hk
    rcases cases_update hk with ⟨rfl, rfl⟩ | ⟨hki, hk⟩
    · exact ((hm.view k h hi).congr (hm.closed k h hi) fun T j hj => extended_of_lt hj).after
        (fresh_extended _ _ _) he
    · exact hm.view_spared hi hthere hk hki.symm (hspares k g hki hk)
  case distinct =>
    intro k l g g' T a b hkl hk hl ha ha' hb hb'
    rcases cases_update hk with ⟨rfl, rfl⟩ | ⟨-, hk₁⟩ <;>
      rcases cases_update hl with ⟨rfl, rfl⟩ | ⟨-, hl₁⟩
    · exact absurd rfl hkl
    · exact hm.distinct_advanced hi hl₁ hkl ha hb hb'
    · exact (hm.distinct_advanced hi hk₁ hkl.symm hb ha ha').symm
    · exact hm.distinct k l g g' T a b hkl hk₁ hl₁ ha ha' hb hb'
  case covered => exact fun T x => hm.covered_advanced hi he.here.grows he.created
  case untouched =>
    refine fun l hl hw => hm.content_spared hi hthere hl fun k g hk => ?_
    by_cases hki : k = i
    · exact hki ▸ hw i _ (Function.update_self ..)
    · exact hw k g (by rwa [Function.update_of_ne hki])

end Merged

end Flowgraph
