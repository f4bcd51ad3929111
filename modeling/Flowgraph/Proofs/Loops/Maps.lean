import Mathlib.Tactic.IntervalCases
import Flowgraph.Proofs.Loops.Turns

/-!
# Loops over maps

A loop over a map goes through the keys that the map had when the loop began. Its body may insert
entries, overwrite them and delete them: whether a key is visited depends only on whether the map
has it when its turn comes, and no key is visited twice. As long as nobody reads the position slot
or writes to it, the loop comes to its end after that, and begins again.
-/

namespace Flowgraph

namespace Loop

variable {L : Loop} {C : Course} {r : Cursor} {d : DictId} {K : List Value} {key : Value}
  {i a N t t' t₀ : Nat} {v j : Nat → Nat}

/-! ### Runs through a map -/

/-- The visit at a time has found a key. -/
def Told (L : Loop) (C : Course) (t : Nat) : Prop :=
  (C.machine (t + 1)).store.slot? L.frame L.slot = some (.bool true)

/-- The visits of one run through a map: after each one that has found a key there is another. -/
inductive Pass (L : Loop) (C : Course) (t₀ : Nat) : Nat → Prop
  | first (h : L.VisitedAt C t₀) : Pass L C t₀ t₀
  | next {t t' : Nat} (h : Pass L C t₀ t) (htold : L.Told C t) (hnext : L.Next C t t') :
    Pass L C t₀ t'

lemma Pass.visitedAt (h : L.Pass C t₀ t) : L.VisitedAt C t := by
  cases h with
  | first h => exact h
  | next _ _ hnext => exact hnext.visited

/-- A run with two visits, of which the second one has found no key. -/
lemma Pass.eq_or_eq (h : L.Pass C t₀ t) (hnext : L.Next C t₀ t') (hlast : ¬L.Told C t') :
    t = t₀ ∨ t = t' := by
  induction h with
  | first _ => exact .inl rfl
  | next _ htold hnext' ih =>
    rcases ih with rfl | rfl
    · exact .inr (hnext'.unique hnext)
    · exact absurd htold hlast

/-- Between two visits, nobody reads the position slot or writes to it. -/
def Disregarded (L : Loop) (C : Course) (t t' : Nat) : Prop :=
  ∀ u, t < u → u < t' → (C.machine u).Disregards L.frame (L.slot + 1) (C.machine (u + 1))

/-- The map has a key at a time. -/
def Has (C : Course) (d : DictId) (t : Nat) (key : Value) : Prop :=
  ((C.machine t).store.dict d).get? key ≠ none

/-- The visits of a run through a map, which is the same each time. No map has two equal keys, or
more keys than memory can hold. After a visit that has found a key the chain comes back to the node,
and in between nobody reads the position slot or writes to it. -/
structure Traverses (L : Loop) (C : Course) (t₀ : Nat) (d : DictId) : Prop where
  first : L.VisitedAt C t₀
  begins : L.Fresh (C.machine t₀).store
  proper : ((C.machine t₀).store.dict d).Proper
  held : ((C.machine t₀).store.dict d).keys.length ≤ maxValues
  ready : ∀ t, L.Pass C t₀ t → L.Ready (C.machine t).program (C.machine t).store (.map d)
  returns : ∀ t, L.Pass C t₀ t → L.Told C t → ∃ t' > t, L.VisitedAt C t'
  disregarded : ∀ t t', L.Pass C t₀ t → L.Told C t → L.Next C t t' → L.Disregarded C t t'

/-- What the visits from one at time `t` on find, when the keys from number `i` on are left: the
visits `v 0`, …, `v (N - 1)` take the keys with numbers `j 0`, …, `j (N - 1)`, and the visit `v N`
ends the loop. -/
structure Tour (L : Loop) (C : Course) (r : Cursor) (d : DictId) (K : List Value) (i t N : Nat)
    (v j : Nat → Nat) : Prop where
  first : v 0 = t
  next : ∀ k < N, L.Next C (v k) (v (k + 1))
  /-- Each visit but the last one takes a key, and the value that the key has at that moment. -/
  takes : ∀ k < N, ∃ key value, K[j k]? = some key ∧
    ((C.machine (v k)).store.dict d).get? key = some value ∧
    L.Takes r (C.machine (v k)) (C.machine (v k + 1)) key value
  left : ∀ k < N, i ≤ j k
  /-- The keys are taken in their order. -/
  forward : ∀ k l, k < l → l < N → j k < j l
  /-- The turn of each key comes in some visit: the visits before have taken keys before it, and all
  others take none before it. The key is taken if and only if the map has it then. -/
  turns : ∀ a key, i ≤ a → K[a]? = some key → ∃ k ≤ N, (∀ l < k, j l < a) ∧
    (∀ l, k ≤ l → l < N → a ≤ j l) ∧ ((∃ l < N, j l = a) ↔ Has C d (v k) key)
  /-- The last visit finds no key. -/
  ends : L.Ends r (C.machine (v N)) (C.machine (v N + 1))

/-- A visit that finds no key. -/
lemma tour_nil (hends : L.Ends r (C.machine t) (C.machine (t + 1)))
    (habsent : ∀ b k, i ≤ b → K[b]? = some k → ((C.machine t).store.dict d).get? k = none) :
    L.Tour C r d K i t 0 (fun _ => t) fun _ => 0 where
  first := rfl
  next _ hk := absurd hk (Nat.not_lt_zero _)
  takes _ hk := absurd hk (Nat.not_lt_zero _)
  left _ hk := absurd hk (Nat.not_lt_zero _)
  forward _ _ _ hl := absurd hl (Nat.not_lt_zero _)
  turns b k hb hk := by
    refine ⟨0, Nat.le_refl 0, fun l hl => absurd hl (Nat.not_lt_zero l),
      fun l _ hl => absurd hl (Nat.not_lt_zero l), ?_⟩
    constructor
    · rintro ⟨l, hl, -⟩
      exact absurd hl (Nat.not_lt_zero l)
    · exact fun hhas => absurd (habsent b k hb hk) hhas
  ends := hends

/-- A visit that takes a key, and the visits after it. -/
lemma Tour.cons {value : Value} (h : L.Tour C r d K (a + 1) t' N v j) (hnext : L.Next C t t')
    (ha : i ≤ a) (hkey : K[a]? = some key)
    (hvalue : ((C.machine t).store.dict d).get? key = some value)
    (htakes : L.Takes r (C.machine t) (C.machine (t + 1)) key value)
    (hbefore : ∀ b k, i ≤ b → b < a → K[b]? = some k →
      ((C.machine t).store.dict d).get? k = none) :
    L.Tour C r d K i t (N + 1) (fun | 0 => t | k + 1 => v k) fun | 0 => a | k + 1 => j k where
  first := rfl
  next
    | 0, _ => by
      change L.Next C t (v 0)
      rw [h.first]
      exact hnext
    | k + 1, hk => h.next k (Nat.lt_of_succ_lt_succ hk)
  takes
    | 0, _ => ⟨key, value, hkey, hvalue, htakes⟩
    | k + 1, hk => h.takes k (Nat.lt_of_succ_lt_succ hk)
  left
    | 0, _ => ha
    | k + 1, hk => Nat.le_trans (Nat.le_succ_of_le ha) (h.left k (Nat.lt_of_succ_lt_succ hk))
  forward
    | 0, l + 1, _, hl => h.left l (Nat.lt_of_succ_lt_succ hl)
    | k + 1, l + 1, hkl, hl =>
      h.forward k l (Nat.lt_of_succ_lt_succ hkl) (Nat.lt_of_succ_lt_succ hl)
  turns b k hb hk := by
    rcases Nat.lt_trichotomy b a with hlt | rfl | hlt
    case inl =>
      -- The key was left, but the map does not have it now, and later visits are behind it.
      have hbehind : ∀ l < N + 1, b < (fun | 0 => a | l + 1 => j l : Nat → Nat) l
        | 0, _ => hlt
        | l + 1, hl => Nat.lt_trans hlt (h.left l (Nat.lt_of_succ_lt_succ hl))
      refine ⟨0, Nat.zero_le _, fun l hl => absurd hl (Nat.not_lt_zero l),
        fun l _ hl => Nat.le_of_lt (hbehind l hl), ?_⟩
      constructor
      · rintro ⟨l, hl, he⟩
        exact absurd he (Nat.ne_of_gt (hbehind l hl))
      · exact fun hhas => absurd (hbefore b k hb hlt hk) hhas
    case inr.inl =>
      cases hkey.symm.trans hk
      have hfrom : ∀ l < N + 1, b ≤ (fun | 0 => b | l + 1 => j l : Nat → Nat) l
        | 0, _ => Nat.le_refl b
        | l + 1, hl => Nat.le_of_lt (h.left l (Nat.lt_of_succ_lt_succ hl))
      refine ⟨0, Nat.zero_le _, fun l hl => absurd hl (Nat.not_lt_zero l),
        fun l _ hl => hfrom l hl, ?_⟩
      constructor
      · intro _ hnone
        cases hvalue.symm.trans hnone
      · exact fun _ => ⟨0, Nat.succ_pos N, rfl⟩
    case inr.inr =>
      obtain ⟨n, hn, hahead, hbehind, htaken⟩ := h.turns b k hlt hk
      refine ⟨n + 1, Nat.succ_le_succ hn, ?_, ?_, ?_⟩
      · rintro (_ | l) hl
        · exact hlt
        · exact hahead l (Nat.lt_of_succ_lt_succ hl)
      · rintro (_ | l) hnl hl
        · exact absurd hnl (Nat.not_succ_le_zero n)
        · exact hbehind l (Nat.le_of_succ_le_succ hnl) (Nat.lt_of_succ_lt_succ hl)
      · refine Iff.trans ?_ htaken
        constructor
        · rintro ⟨_ | l, hl, he⟩
          · exact absurd he (Nat.ne_of_lt hlt)
          · exact ⟨l, Nat.lt_of_succ_lt_succ hl, he⟩
        · rintro ⟨l, hl, he⟩
          exact ⟨l + 1, Nat.succ_lt_succ hl, he⟩
  ends := h.ends

/-! ### From visit to visit -/

/-- What those who disregard the position slot preserve lasts until the next visit. -/
lemma Disregarded.lasts {P : Machine → Prop} (h : L.Disregarded C t t') (hlt : t < t')
    (hP : ∀ u, P (C.machine u) →
      (C.machine u).Disregards L.frame (L.slot + 1) (C.machine (u + 1)) → P (C.machine (u + 1)))
    (hstart : P (C.machine (t + 1))) : P (C.machine t') := by
  obtain ⟨n, rfl⟩ := Nat.exists_eq_add_of_le (Nat.succ_le_of_lt hlt)
  clear hlt
  induction n with
  | zero => exact hstart
  | succ n ih =>
    have hlast := ih fun u hu hu' => h u hu (Nat.lt_succ_of_lt hu')
    exact hP (t + 1 + n) hlast (h (t + 1 + n) (by omega) (by omega))

/-- From a visit with its cursor on, the keys that are left are gone through. -/
lemma Traverses.tour (h : L.Traverses C t₀ d) (hp : ∀ t, (C.machine t).program.Loaded)
    (hn : ∀ t, (C.machine t).program.natives.Modest) (hK : K.length < 2 ^ 63)
    (ht : L.Pass C t₀ t) {s : Store} (hi : i ≤ K.length)
    (hpoised : L.Poised r K i d (C.machine t) s) : ∃ N v j, L.Tour C r d K i t N v j := by
  -- Each visit that takes a key leaves fewer keys, whatever has become of the map.
  induction hleft : K.length - i using Nat.strong_induction_on generalizing i t s with
  | _ n ih =>
    obtain ⟨hreached, hstep⟩ := ht.visitedAt
    rcases hpoised.visit hreached (h.ready t ht) (Nat.lt_of_le_of_lt hi hK) with
      ⟨a, key, value, ha, hkey, hvalue, hbefore, htakes, hkeeps⟩ | ⟨habsent, hends⟩
    · rw [← hstep] at htakes hkeeps
      obtain ⟨t₁, hgt, hvisited⟩ := h.returns t ht htakes.told
      obtain ⟨t', hnext⟩ := Loop.exists_next hgt hvisited
      have hkeeps' : L.Keeps r K (a + 1) (C.machine t') :=
        (h.disregarded t t' ht htakes.told hnext).lasts hnext.lt
          (fun u hu hd => hu.disregards (hp u) (hn u) hd) hkeeps
      have hlt : a < K.length := (List.getElem?_eq_some_iff.mp hkey).1
      obtain ⟨N, v, j, htour⟩ := ih (K.length - (a + 1)) (by omega) (.next ht htakes.told hnext)
        hlt (hkeeps'.poised d) rfl
      exact ⟨_, _, _, htour.cons hnext ha hkey hvalue htakes hbefore⟩
    · rw [← hstep] at hends
      exact ⟨_, _, _, tour_nil hends habsent⟩

/-! ### Whole runs -/

/-- What a run through a map comes to, in visits at times `v 0`, …, `v N` which take the keys with
numbers `j 0`, …, `j (N - 1)` among those that the map had at first. -/
structure Exhausts (L : Loop) (C : Course) (t₀ : Nat) (d : DictId) (r : Cursor) (N : Nat)
    (v j : Nat → Nat) : Prop extends
    Tour L C r d ((C.machine t₀).store.dict d).keys 0 t₀ N v j where
  /-- The cursor is new. -/
  fresh : ∀ b, r.Owns b → (C.machine t₀).store.blocks.size ≤ b.index
  /-- There are no more visits than keys, but for the last one. -/
  bounded : N ≤ ((C.machine t₀).store.dict d).keys.length
  /-- No two visits take equal keys. -/
  different : ∀ k l, k < l → l < N → ∀ x y,
    ((C.machine t₀).store.dict d).keys[j k]? = some x →
    ((C.machine t₀).store.dict d).keys[j l]? = some y → (y == x) = false
  /-- A key that is equal to itself, and that nobody deletes from one visit to the next, is taken
  exactly once. -/
  once : ∀ a key, ((C.machine t₀).store.dict d).keys[a]? = some key → (key == key) = true →
    (∀ k < N, Has C d (v k) key → Has C d (v (k + 1)) key) → ∃! l, l < N ∧ j l = a
  /-- If nobody writes to the position slot afterwards, the next visit begins again. -/
  again : ∀ t', L.Next C (v N) t' → L.Disregarded C (v N) t' → L.Fresh (C.machine t').store

section Whole

variable {D : Dict}

/-- Two keys of a map are not equal. -/
lemma keys_different (h : D.Proper) {a b : Nat} {x y : Value} (hab : a < b)
    (hx : D.keys[a]? = some x) (hy : D.keys[b]? = some y) : (y == x) = false := by
  have hpairwise : D.keys.Pairwise fun x y => (y == x) = false := by
    rw [Dict.keys, List.pairwise_reverse, List.pairwise_map]
    exact h
  obtain ⟨ha, rfl⟩ := List.getElem?_eq_some_iff.mp hx
  obtain ⟨hb, rfl⟩ := List.getElem?_eq_some_iff.mp hy
  exact List.pairwise_iff_getElem.mp hpairwise a b ha hb hab

/-- A key that is equal to itself is found. -/
lemma get?_of_mem_keys (h : key ∈ D.keys) (hself : (key == key) = true) : D.get? key ≠ none := by
  obtain ⟨e, he, rfl⟩ := List.mem_map.mp (List.mem_reverse.mp h)
  have hcontains : D.contains e.1 = true := List.any_eq_true.mpr ⟨e, he, hself⟩
  rw [Dict.contains_eq_isSome, Option.isSome_iff_ne_none] at hcontains
  exact hcontains

/-- Visits that take keys in their order are no more than there are keys. -/
lemma Tour.bounded (h : L.Tour C r d K i t N v j) : N ≤ K.length := by
  have hle : ∀ k < N, k ≤ j k := by
    intro k hk
    induction k with
    | zero => exact Nat.zero_le _
    | succ k ih =>
      have hprev := ih (Nat.lt_of_succ_lt hk)
      have hlt := h.forward k (k + 1) (Nat.lt_succ_self k) hk
      omega
  by_contra hgt
  obtain ⟨key, value, hkey, -⟩ := h.takes K.length (by omega)
  have hlt := (List.getElem?_eq_some_iff.mp hkey).1
  have hk := hle K.length (by omega)
  omega

/-- No key is taken twice. -/
lemma Tour.unique (h : L.Tour C r d K i t N v j) {k l : Nat} (hk : k < N) (hl : l < N)
    (he : j k = j l) : k = l := by
  rcases Nat.lt_trichotomy k l with hlt | rfl | hlt
  · exact absurd he (Nat.ne_of_lt (h.forward k l hlt hl))
  · rfl
  · exact absurd he (Nat.ne_of_gt (h.forward l k hlt hk))

lemma Tour.has (h : L.Tour C r d K i t N v j) (hfirst : Has C d t key)
    (hstays : ∀ k < N, Has C d (v k) key → Has C d (v (k + 1)) key) :
    ∀ k ≤ N, Has C d (v k) key
  | 0, _ => by rwa [h.first]
  | k + 1, hk => hstays k hk (h.has hfirst hstays k (Nat.le_of_succ_le hk))

lemma Tour.pass (h : L.Tour C r d K i t N v j) (ht : L.Pass C t₀ t) :
    ∀ k ≤ N, L.Pass C t₀ (v k)
  | 0, _ => by rwa [h.first]
  | k + 1, hk => by
    obtain ⟨key, value, -, -, htakes⟩ := h.takes k hk
    exact (h.pass ht k (Nat.le_of_succ_le hk)).next htakes.told (h.next k hk)

lemma Traverses.fits (h : L.Traverses C t₀ d) (hfit : (C.machine t₀).Fits) (ht : L.Pass C t₀ t) :
    (C.machine t).Fits := by
  induction ht with
  | first _ => exact hfit
  | @next t t' ht htold hnext ih =>
    refine (h.disregarded t t' ht htold hnext).lasts hnext.lt (fun u hu hd => hd.fits hu) ?_
    rw [ht.visitedAt.2]
    exact ih.step _

/-- After the end, the position slot stays clear until the next visit. -/
lemma Ends.fresh (h : L.Ends r (C.machine t) (C.machine (t + 1))) (hvisited : L.VisitedAt C t)
    (hfit : (C.machine t).Fits) (hsize : L.slot + 1 < (C.machine t).store.frameSize L.frame)
    (hlt : t < t') (hd : L.Disregarded C t t') : L.Fresh (C.machine t').store := by
  have hcleared : (C.machine (t + 1)).Fits ∧
      (C.machine (t + 1)).store.slot? L.frame (L.slot + 1) = some .nil := by
    have hsize' := Machine.frameSize_step hfit hsize (.run L.chain)
    have hposition := h.position
    rw [hvisited.2] at hposition ⊢
    exact ⟨hfit.step _, by rw [position_eq hsize', hposition]⟩
  have hlast := hd.lasts (P := fun m => m.Fits ∧ m.store.slot? L.frame (L.slot + 1) = some .nil)
    hlt (fun u hu hdu => ⟨hdu.fits hu.1, hdu.slot? hu.1 hu.2⟩) hcleared
  refine .inl ?_
  rw [Loop.position, hlast.2]
  rfl

section Loaded

variable {graph : Graph} {natives : Registry} {config : Config} {kept : Bool} {loaded m : Machine}

/-- The stages of chains fit their nodes, whatever a host has done since a graph was loaded. -/
lemma fits_of_load (hload : Machine.load graph natives config kept = .ok loaded)
    (hm : loaded.Attains m) : m.Fits := by
  obtain ⟨p, -, rfl⟩ := Machine.of_load hload
  exact hm.fits fun y c hc => by cases hc

/-- A run that begins has a new cursor, and goes through all keys of the map. -/
lemma Traverses.exists_tour (hblind : natives.Blind) (hmodest : natives.Modest)
    (hload : Machine.load graph natives config kept = .ok loaded)
    (hm : loaded.Attains (C.machine t₀)) (h : L.Traverses C t₀ d) :
    ∃ N v j, L.Tour C (C.machine t₀).store.nextCursor d ((C.machine t₀).store.dict d).keys 0 t₀ N
      v j := by
  have hkept := (Machine.kept_of_load hblind hload).attains hm
  have hfit := fits_of_load hload hm
  obtain ⟨p, hprogram, rfl⟩ := Machine.of_load hload
  have hp : ∀ t, (C.machine t).program.Loaded := fun t => C.program t₀ t ▸ hkept.loaded
  have hn : ∀ t, (C.machine t).program.natives.Modest := by
    intro t
    have hnatives : p.natives = natives := Program.natives_of_load hprogram
    rw [C.program t t₀, hm.program]
    exact hnatives ▸ hmodest
  have hK : ((C.machine t₀).store.dict d).keys.length < 2 ^ 63 :=
    Nat.lt_of_le_of_lt h.held (by decide)
  exact h.tour hp hn hK (.first h.first) (Nat.zero_le _) (h.begins.poised hkept hfit d)

end Loaded

/-- Whatever the body of a loop over a map does, as long as nobody reads the position slot or writes
to it: the loop goes through the keys that the map had when it began, and comes to its end. Of these
keys it visits those that the map has when their turn comes, each once, with the value that they
have then; and when it is entered again, it begins again. -/
theorem exhausts {graph : Graph} {natives : Registry} {config : Config} {kept : Bool}
    {loaded : Machine} (hblind : natives.Blind) (hmodest : natives.Modest)
    (hload : Machine.load graph natives config kept = .ok loaded)
    (hm : loaded.Attains (C.machine t₀)) (h : L.Traverses C t₀ d) :
    ∃ r N v j, L.Exhausts C t₀ d r N v j := by
  have hpass : L.Pass C t₀ t₀ := .first h.first
  obtain ⟨N, v, j, htour⟩ := h.exists_tour hblind hmodest hload hm
  have hfit := fits_of_load hload hm
  refine ⟨_, N, v, j, htour, fun b => Store.size_le_of_owns, htour.bounded, ?different, ?once,
    ?again⟩
  case different =>
    intro k l hkl hl x y hx hy
    exact keys_different h.proper (htour.forward k l hkl hl) hx hy
  case once =>
    -- The map has the key at first, hence in all visits, and in the one where its turn comes.
    intro a key hkey hself hstays
    have hhas := htour.has (get?_of_mem_keys (List.mem_of_getElem? hkey) hself) hstays
    obtain ⟨k, hk, -, -, htaken⟩ := htour.turns a key (Nat.zero_le a) hkey
    obtain ⟨l, hl, hla⟩ := htaken.mpr (hhas k hk)
    exact ⟨l, ⟨hl, hla⟩, fun l' hl' => htour.unique hl'.1 hl (hl'.2.trans hla.symm)⟩
  case again =>
    intro t' hnext hd
    have hlast := htour.pass hpass N (Nat.le_refl N)
    exact htour.ends.fresh hlast.visitedAt (h.fits hfit hlast) (h.ready _ hlast).size hnext.lt hd

end Whole

/-- A map with two keys is made and gone through. The body inserts an entry. -/
def stocking : Graph where
  globals := 5
  nodes := #[
    { kind := .mapLit, children := [⟨1⟩, ⟨2⟩, ⟨3⟩], slot := some 0, next := some ⟨8⟩ },
    { kind := .typeExpr },
    { kind := .keyValue, children := [⟨4⟩, ⟨5⟩] },
    { kind := .keyValue, children := [⟨6⟩, ⟨7⟩] },
    { kind := .basicLit, payload := some (.literal (.int 1)) },
    { kind := .basicLit, payload := some (.literal (.int 10)) },
    { kind := .basicLit, payload := some (.literal (.int 2)) },
    { kind := .basicLit, payload := some (.literal (.int 20)) },
    { kind := .range, children := [⟨9⟩, ⟨10⟩, ⟨11⟩], slot := some 3, next := some ⟨12⟩,
      otherwise := some ⟨14⟩ },
    { kind := .ident, slot := some 1 },
    { kind := .ident, slot := some 2 },
    { kind := .ident, slot := some 0 },
    { kind := .assignMap, children := [⟨13⟩, ⟨10⟩], next := some ⟨8⟩ },
    { kind := .indexMap, children := [⟨11⟩, ⟨10⟩] },
    { kind := .nop }]

/-- The program, as it is loaded. -/
def stockingProgram : Program where
  graph := stocking
  constants := #[none, none, none, none, some (.int 1), some (.int 10), some (.int 2),
    some (.int 20), none, none, none, none, none, none, none]
  natives := .empty
  config := {}

/-- The loop, in the first chain. -/
def stockingLoop : Loop :=
  ⟨⟨0⟩, globalFrame, ⟨8⟩, 3, ⟨9⟩, ⟨10⟩, ⟨11⟩, some ⟨12⟩, ⟨14⟩⟩

/-- The machine when the loop begins. -/
def stockingStart : Machine :=
  (((Machine.ofProgram stockingProgram true).addChain (.atNode ⟨0⟩)).2.step (.run ⟨0⟩)).step
    (.run ⟨0⟩)

lemma load_stocking :
    Machine.load stocking .empty {} true = .ok (.ofProgram stockingProgram true) := rfl

/-- After the first visit, a host deletes the key that has not been visited. -/
def stockingRest : Machine :=
  let m := stockingStart.step (.run ⟨0⟩)
  { m with store := m.store.edit (.eraseEntry ⟨0⟩ (.int 1)) }

/-- The chain moves on and on. -/
def stockingCourse : Course where
  machine
    | 0 => stockingStart
    | 1 => stockingStart.step (.run ⟨0⟩)
    | t + 2 => Course.afterMoves stockingRest (fun _ => .run ⟨0⟩) t
  program t t' := by
    have hsame : ∀ t, (match t with
      | 0 => stockingStart
      | 1 => stockingStart.step (.run ⟨0⟩)
      | t + 2 => Course.afterMoves stockingRest (fun _ => .run ⟨0⟩) t : Machine).program =
        stockingProgram
      | 0 => rfl
      | 1 => rfl
      | t + 2 => Course.program_afterMoves _ _ t
    rw [hsame, hsame]

lemma next_stocking : stockingLoop.Next stockingCourse 0 5 := by
  refine ⟨by decide, ⟨⟨_, _, _, _, rfl, rfl, rfl, rfl⟩, rfl⟩, fun u hu hu' => ?_⟩
  rintro ⟨⟨c, a, depth, rest, hc, hs, hw, -⟩, -⟩
  interval_cases u <;> cases hc
  all_goals cases hs
  all_goals cases hw

lemma disregarded_stocking : stockingLoop.Disregarded stockingCourse 0 5 := by
  intro u hu hu'
  interval_cases u
  · exact .edit (e := .eraseEntry ⟨0⟩ (.int 1)) (fun h => h) trivial fun b j v he => by cases he
  · exact .move (.run ⟨0⟩) fun v => by rfl
  · exact .move (.run ⟨0⟩) fun v => by rfl
  · exact .move (.run ⟨0⟩) fun v => by rfl

lemma ready_stocking : ∀ t, t = 0 ∨ t = 5 → stockingLoop.Ready (stockingCourse.machine t).program
    (stockingCourse.machine t).store (.map ⟨0⟩) := by
  rintro t (rfl | rfl)
  all_goals
    exact ⟨⟨_, rfl, rfl, rfl, rfl, rfl, rfl, rfl, rfl, rfl⟩, (by decide),
      ⟨_, .slot rfl rfl rfl (by decide)⟩, ⟨_, .slot rfl rfl rfl (by decide)⟩, rfl⟩

lemma attains_stocking :
    (Machine.ofProgram stockingProgram true).Attains stockingStart := by
  have hwithin := within_atNode (n := (Machine.ofProgram stockingProgram true).store.size)
    Nat.zero_lt_one ⟨0⟩
  exact ((Machine.Attains.start.host (.atNode ⟨0⟩) hwithin).move (.run ⟨0⟩)).move (.run ⟨0⟩)

lemma told_stocking : stockingLoop.Told stockingCourse 0 ∧ ¬stockingLoop.Told stockingCourse 5 := by
  constructor
  · rfl
  · intro h
    cases h

lemma visitedAt_stocking : stockingLoop.VisitedAt stockingCourse 0 :=
  ⟨⟨_, _, _, _, rfl, rfl, rfl, rfl⟩, rfl⟩

lemma pass_stocking {t : Nat} (h : stockingLoop.Pass stockingCourse 0 t) : t = 0 ∨ t = 5 :=
  h.eq_or_eq next_stocking told_stocking.2

lemma traverses_stocking : stockingLoop.Traverses stockingCourse 0 ⟨0⟩ := by
  have hdict : (stockingCourse.machine 0).store.dict ⟨0⟩ =
      ⟨[(.int 1, .int 10), (.int 2, .int 20)]⟩ := rfl
  constructor
  case first => exact visitedAt_stocking
  case begins => exact .inl rfl
  case proper =>
    rw [hdict, Dict.Proper]
    decide
  case held =>
    rw [hdict]
    decide
  case ready => exact fun t ht => ready_stocking t (pass_stocking ht)
  case returns =>
    intro t ht htold
    rcases pass_stocking ht with rfl | rfl
    · exact ⟨5, by decide, next_stocking.visited⟩
    · exact absurd htold told_stocking.2
  case disregarded =>
    intro t t' ht htold hnext
    rcases pass_stocking ht with rfl | rfl
    · exact hnext.unique next_stocking ▸ disregarded_stocking
    · exact absurd htold told_stocking.2

theorem exhausts_stocking : ∃ r v j, stockingLoop.Exhausts stockingCourse 0 ⟨0⟩ r 1 v j := by
  have hnatives : Registry.empty.Blind ∧ Registry.empty.Modest :=
    ⟨fun _ he => absurd he List.not_mem_nil, fun _ he => absurd he List.not_mem_nil⟩
  obtain ⟨r, N, v, j, h⟩ := exhausts hnatives.1 hnatives.2 load_stocking attains_stocking
    traverses_stocking
  rcases N with _ | _ | N
  · obtain ⟨u, -, hfinishes, -⟩ := h.ends
    have hflag := hfinishes.flag
    rw [h.first] at hflag
    cases hflag
  · exact ⟨r, v, j, h⟩
  · obtain ⟨key, value, -, -, htakes⟩ := h.takes 1 (by omega)
    have hfirst := h.next 0 (by omega)
    rw [h.first] at hfirst
    have htold := htakes.told
    rw [hfirst.unique next_stocking] at htold
    exact absurd htold told_stocking.2

end Loop

end Flowgraph
