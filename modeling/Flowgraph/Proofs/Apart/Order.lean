import Mathlib.Data.Fintype.Card
import Flowgraph.Proofs.Apart.Merge
import Flowgraph.Proofs.Apart.Transfer

/-!
# The order of jobs makes no difference

Two common stores in which the same jobs have come to the same point are the same, up to the names
of what was created.
-/

namespace Flowgraph

open Named Store

variable {s₀ s t t' : Store} {F : Nat → Footprint} {π : Renaming}

/-! ### Stores that look the same from everywhere -/

namespace Store

lemma moved_of_lt {α : Type} [Named α] {f : Nat → Nat} {a b : Array α} (hsize : b.size = a.size)
    (hlt : ∀ k, k < a.size → b[f k]? = rename π a[k]?) (hge : ∀ k, a.size ≤ k → b.size ≤ f k) :
    Moved π f a b where
  size := hsize
  get k := by
    by_cases hk : k < a.size
    · exact hlt k hk
    · rw [Array.getElem?_eq_none (Nat.not_lt.mp hk),
        Array.getElem?_eq_none (hge k (Nat.not_lt.mp hk))]
      rfl

/-- Arrays are the same, up to names, if they are at every place. -/
lemma rename_eq_of_get {a b : Array Value} (h : ∀ i : Nat, b[i]? = rename π a[i]?) :
    b = rename π a :=
  Array.ext_getElem? fun i => by
    rw [h, rename_array, Array.getElem?_map]
    rfl

lemma frame_of_looks {k : Nat} (hk : k < s.frames.size)
    (hshape : t.shape? .frames (π .frames k) = rename π (s.shape? .frames k))
    (hslots : ∀ i, t.slot? ⟨π .frames k⟩ i = rename π (s.slot? ⟨k⟩ i)) :
    t.frames[π .frames k]? = rename π s.frames[k]? := by
  simp only [shape?, slot?, slots, frame, Array.getElem?_eq_getElem hk] at hshape hslots ⊢
  cases hf : t.frames[π .frames k]? with
  | none =>
    rw [hf] at hshape
    cases hshape
  | some f =>
    rw [hf] at hshape hslots
    have hparent := congrArg Shape.parent (Option.some.inj hshape)
    obtain ⟨slots, parent⟩ := f
    refine congrArg some ?_
    rw [rename_frame, Frame.mk.injEq]
    exact ⟨rename_eq_of_get hslots, hparent⟩

lemma block_of_looks {k : Nat} (hk : k < s.blocks.size)
    (hshape : t.shape? .blocks (π .blocks k) = rename π (s.shape? .blocks k))
    (helements : ∀ i, t.target? ⟨π .blocks k⟩ i = rename π (s.target? ⟨k⟩ i)) :
    t.blocks[π .blocks k]? = rename π s.blocks[k]? := by
  simp only [shape?, target?, block, Array.getElem?_eq_getElem hk] at hshape helements ⊢
  cases hb : t.blocks[π .blocks k]? with
  | none =>
    rw [hb] at hshape
    cases hshape
  | some b =>
    rw [hb] at helements
    exact congrArg some (rename_eq_of_get helements)

/-- Stores with the same shapes and contents everywhere, up to names, are the same up to names. -/
lemma renamed_of_looks (hπ : π.Injective) (hg : π .frames globalFrame.index = globalFrame.index)
    (hsize : ∀ T, t.size T = s.size T) (hge : ∀ T k, s.size T ≤ k → t.size T ≤ π T k)
    (hshape : ∀ T k, k < s.size T → t.shape? T (π T k) = rename π (s.shape? T k))
    (hcontent : ∀ l, Within s.size l → t.content (rename π l) = rename π (s.content l)) :
    s.Renamed π t where
  injective := hπ
  anchored := hg
  frames := by
    refine moved_of_lt (hsize .frames) (fun k hk => ?_) (hge .frames)
    refine frame_of_looks hk (hshape .frames k hk) fun i => ?_
    exact Content.value.inj (hcontent (.slot ⟨k⟩ i) fun T j hj => by
      obtain ⟨rfl, rfl⟩ := hj
      exact hk)
  blocks := by
    refine moved_of_lt (hsize .blocks) (fun k hk => ?_) (hge .blocks)
    refine block_of_looks hk (hshape .blocks k hk) fun i => ?_
    exact Content.value.inj (hcontent (.element ⟨k⟩ i) fun T j hj => by
      obtain ⟨rfl, rfl⟩ := hj
      exact hk)
  dicts := by
    refine moved_of_lt (hsize .dicts) (fun k hk => ?_) (hge .dicts)
    exact Content.dict.inj (hcontent (.dict ⟨k⟩) fun T j hj => by
      obtain ⟨rfl, rfl⟩ := hj
      exact hk)
  channels := by
    refine moved_of_lt (hsize .channels) (fun k hk => ?_) (hge .channels)
    exact Content.channel.inj (hcontent (.channel ⟨k⟩) fun T j hj => by
      obtain ⟨rfl, rfl⟩ := hj
      exact hk)
  output := Content.output.inj (hcontent .output fun _ _ hk => hk.elim)

end Store

/-! ### Names in two common stores -/

variable {a b : Nat → Option Share}

/-- Two shares have come to the same point. -/
def Abreast (a b : Nat → Option Share) : Prop :=
  ∀ i, (a i).map Share.store = (b i).map Share.store

lemma Abreast.symm (h : Abreast a b) : Abreast b a := fun i => (h i).symm

lemma Abreast.exists_share (h : Abreast a b) {i : Nat} {g : Share} (hi : a i = some g) :
    ∃ g', b i = some g' ∧ g'.store = g.store := by
  have hmap := h i
  rw [hi] at hmap
  obtain ⟨g', hg', he⟩ := Option.map_eq_some_iff.mp hmap.symm
  exact ⟨g', hg', he⟩

/-- The names of one thing in two common stores: it was there before, or one job created it. -/
inductive Takes (s₀ : Store) (a b : Nat → Option Share) (T : Table) : Nat → Nat → Prop
  | old {x : Nat} (h : x < s₀.size T) : Takes s₀ a b T x x
  | new {i k : Nat} {g g' : Share} (hg : a i = some g) (hg' : b i = some g')
    (hs : g'.store = g.store) (hk : s₀.size T ≤ k) (hk' : k < g.store.size T) :
    Takes s₀ a b T (g.names T k) (g'.names T k)

lemma Takes.symm {T : Table} {x y : Nat} (h : Takes s₀ a b T x y) : Takes s₀ b a T y x := by
  cases h with
  | old h => exact .old h
  | new hg hg' hs hk hk' => exact .new hg' hg hs.symm hk (hs ▸ hk')

/-- A renaming of what is in one common store to what it is called in the other. All other names
stay. -/
structure Translates (s₀ t : Store) (a b : Nat → Option Share) (π : Renaming) : Prop where
  takes : ∀ T x, x < t.size T → Takes s₀ a b T x (π T x)
  beyond : ∀ T x, t.size T ≤ x → π T x = x

namespace Merged

variable (ha : Merged s₀ F a t) (hb : Merged s₀ F b t') (hab : Abreast a b) {T : Table}
  {x y z : Nat}

include ha

lemma lt_of_takes (h : Takes s₀ a b T x y) : x < t.size T := by
  cases h with
  | old h => exact Nat.lt_of_lt_of_le h (ha.grows T)
  | new hg hg' hs hk hk' => exact (ha.view _ _ hg).lt hk'

lemma le_of_takes_new {i k : Nat} {g : Share} (hg : a i = some g) (hk : s₀.size T ≤ k)
    (hk' : k < g.store.size T) : s₀.size T ≤ g.names T k := (ha.apart i g hg).beyond T k hk hk'

lemma takes_unique (h : Takes s₀ a b T x y) (h' : Takes s₀ a b T x z) : y = z := by
  cases h with
  | old h =>
    generalize hx : x = w at h'
    cases h' with
    | old _ => rfl
    | new hg hg' hs hk hk' =>
      have hge := ha.le_of_takes_new hg hk hk'
      omega
  | @new i k g g' hg hg' hs hk hk' =>
    generalize hx : g.names T k = w at h'
    cases h' with
    | old h =>
      have hge := ha.le_of_takes_new hg hk hk'
      omega
    | @new j l f f' hf hf' hs' hl hl' =>
      by_cases hij : i = j
      · subst hij
        cases hg.symm.trans hf
        cases hg'.symm.trans hf'
        rw [(ha.view i g hg).injective T k l hk' hl' hx]
      · exact absurd hx (ha.distinct i j g f T k l hij hg hf hk hk' hl hl')

include hab

lemma exists_takes (hx : x < t.size T) : ∃ y, Takes s₀ a b T x y := by
  by_cases hlt : x < s₀.size T
  · exact ⟨x, .old hlt⟩
  · obtain ⟨i, g, k, hg, hk, hk', rfl⟩ := ha.covered T x (Nat.not_lt.mp hlt) hx
    obtain ⟨g', hg', hs⟩ := hab.exists_share hg
    exact ⟨_, .new hg hg' hs hk hk'⟩

lemma exists_translates : ∃ π, Translates s₀ t a b π := by
  have hname : ∀ T x, ∃ y, (x < t.size T → Takes s₀ a b T x y) ∧ (t.size T ≤ x → y = x) := by
    intro T x
    by_cases hx : x < t.size T
    · obtain ⟨y, hy⟩ := ha.exists_takes hab hx
      exact ⟨y, fun _ => hy, fun hle => absurd hx (Nat.not_lt.mpr hle)⟩
    · exact ⟨x, fun hlt => absurd hlt hx, fun _ => rfl⟩
  choose π htakes hbeyond using hname
  exact ⟨π, htakes, hbeyond⟩

include hb

lemma size_le : t.size T ≤ t'.size T := by
  choose y hy using fun i : Fin (t.size T) => ha.exists_takes hab i.isLt
  have hcard := Fintype.card_le_of_injective
    (fun i => (⟨y i, hb.lt_of_takes (hy i).symm⟩ : Fin (t'.size T))) fun i j hij => by
      have hyij : y i = y j := Fin.mk.inj hij
      exact Fin.ext (hb.takes_unique (hy i).symm (hyij ▸ (hy j).symm))
  simpa using hcard

lemma size_eq (T : Table) : t'.size T = t.size T :=
  Nat.le_antisymm (hb.size_le ha hab.symm) (ha.size_le hb hab)

/-! ### What is called by its other name -/

variable (hπ : Translates s₀ t a b π)

include hπ

omit hab hb in
lemma keeps : Keeps π s₀ := fun T k hk =>
  ha.takes_unique (hπ.takes T k (Nat.lt_of_lt_of_le hk (ha.grows T))) (.old hk)

lemma injective : π.Injective := by
  -- a name that is in use is never taken to one that is not
  have hin : ∀ T x, x < t.size T → π T x < t.size T := fun T x hx => by
    rw [← ha.size_eq hb hab]
    exact hb.lt_of_takes (hπ.takes T x hx).symm
  intro T x x' hxx
  by_cases hx : x < t.size T <;> by_cases hx' : x' < t.size T
  · have hy := (hπ.takes T x' hx').symm
    rw [← hxx] at hy
    exact hb.takes_unique (hπ.takes T x hx).symm hy
  · have hlt := hin T x hx
    rw [hxx, hπ.beyond T x' (Nat.not_lt.mp hx')] at hlt
    exact absurd hlt hx'
  · have hlt := hin T x' hx'
    rw [← hxx, hπ.beyond T x (Nat.not_lt.mp hx)] at hlt
    exact absurd hlt hx
  · rwa [hπ.beyond T x (Nat.not_lt.mp hx), hπ.beyond T x' (Nat.not_lt.mp hx')] at hxx

omit hab in
/-- What a job created goes by the names that the job has for it in the other store. -/
lemma then_eq {i : Nat} {g g' : Share} (hg : a i = some g) (hg' : b i = some g')
    (hs : g'.store = g.store) (T : Table) (k : Nat) (hk : k < g.store.size T) :
    g.names.then π T k = g'.names T k := by
  have hkeeps := ha.keeps hπ
  by_cases hk₀ : k < s₀.size T
  · rw [Renaming.then, (ha.apart i g hg).keeps T k hk₀, (hb.apart i g' hg').keeps T k hk₀,
      hkeeps T k hk₀]
  · exact ha.takes_unique (hπ.takes T _ ((ha.view i g hg).lt hk))
      (.new hg hg' hs (Nat.not_lt.mp hk₀) hk)

omit hab in
lemma shape_translated (hs₀ : s₀.Closed) (hx : x < t.size T) :
    t'.shape? T (π T x) = rename π (t.shape? T x) := by
  have htakes := hπ.takes T x hx
  generalize π T x = y at htakes
  cases htakes with
  | old h => rw [hb.shape T _ h, ha.shape T _ h, (hs₀.shape? T _).rename_self (ha.keeps hπ)]
  | new hg hg' hs hk hk' =>
    rw [(ha.view _ _ hg).shape T _ hk', (hb.view _ _ hg').shape T _ (hs ▸ hk'), rename_rename,
      ((ha.closed _ _ hg).shape? T _).rename_eq (ha.then_eq hb hπ hg hg' hs), hs]

/-- What a job may touch has the same content in both stores. -/
lemma content_touched {i : Nat} {g : Share} (hg : a i = some g) {l : Location}
    (hl : l ∈ (F i).touched s₀) (hw : Within g.store.size l) :
    t'.content (rename π (rename g.names l)) = rename π (t.content (rename g.names l)) := by
  obtain ⟨g', hg', hs⟩ := hab.exists_share hg
  have hthen := ha.then_eq hb hπ hg hg' hs
  rw [(ha.view i g hg).content l hl hw, rename_rename, rename_rename, hw.rename_eq hthen,
    ((ha.closed i g hg).content l).rename_eq hthen, ← hs]
  exact (hb.view i g' hg').content l hl (hs ▸ hw)

lemma content_old (hs₀ : s₀.Closed) {l : Location} (hl : Within s₀.size l) :
    t'.content (rename π l) = rename π (t.content l) := by
  by_cases hw : ∃ i g, a i = some g ∧ l ∈ (F i).writes
  · obtain ⟨i, g, hg, hw⟩ := hw
    have hname : rename g.names l = l := hl.rename_self (ha.apart i g hg).keeps
    have hsame := ha.content_touched hb hab hπ hg (l := l) (fun _ => .inr hw)
      (hl.mono (ha.apart i g hg).grows)
    rwa [hname] at hsame
  · rw [hl.rename_self (ha.keeps hπ), ha.untouched l hl fun i g hg hw' => hw ⟨i, g, hg, hw'⟩,
      (hs₀.content l).rename_self (ha.keeps hπ)]
    refine hb.untouched l hl fun i g' hg' hw' => ?_
    obtain ⟨g, hg, -⟩ := hab.symm.exists_share hg'
    exact hw ⟨i, g, hg, hw'⟩

lemma content_created {l : Location} (hl : Within t.size l) (hl₀ : ¬Within s₀.size l) :
    t'.content (rename π l) = rename π (t.content l) := by
  obtain ⟨T, x, hx, hx₀⟩ : ∃ T x, Mentions l T x ∧ ¬x < s₀.size T := by
    by_contra hall
    exact hl₀ fun T x hx => not_not.mp fun hlt => hall ⟨T, x, hx, hlt⟩
  obtain ⟨i, g, k, hg, hk, hk', hxk⟩ := ha.covered T x (Nat.not_lt.mp hx₀) (hl T x hx)
  -- The location as the job that created it knows it.
  have hback : rename g.names (rename (fun _ _ => k) l) = l := by
    rw [rename_rename]
    refine Eq.trans ((rename_eq_iff _ .id l).mpr fun T' x' hx' => ?_) (rename_id l)
    obtain ⟨rfl, rfl⟩ := Location.mentions_unique hx hx'
    exact hxk
  have hmentions : Mentions (rename (fun _ _ => k) l) T k :=
    Location.mentions_rename.mpr ⟨x, hx, rfl⟩
  have hsame := ha.content_touched hb hab hπ hg (l := rename (fun _ _ => k) l)
    (fun hw => absurd ((Location.within_iff hmentions).mp hw) (Nat.not_lt.mpr hk))
    ((Location.within_iff hmentions).mpr hk')
  rwa [hback] at hsame

omit hπ

/-- Where the same jobs have come to the same point, things are the same up to the names of what
was created. -/
theorem renamed (hs₀ : s₀.Closed) : ∃ π, t.Renamed π t' ∧ Keeps π s₀ := by
  obtain ⟨π, hπ⟩ := ha.exists_translates hab
  have hkeeps := ha.keeps hπ
  refine ⟨π, renamed_of_looks (ha.injective hb hab hπ) (hkeeps .frames _ hs₀.anchored)
    (ha.size_eq hb hab) (fun T k hk => ?_) (fun T k => ha.shape_translated hb hπ hs₀)
    fun l hl => ?_, hkeeps⟩
  · rw [hπ.beyond T k hk, ha.size_eq hb hab]
    exact hk
  · by_cases hl₀ : Within s₀.size l
    · exact ha.content_old hb hab hπ hs₀ hl₀
    · exact ha.content_created hb hab hπ hl hl₀

end Merged

end Flowgraph
