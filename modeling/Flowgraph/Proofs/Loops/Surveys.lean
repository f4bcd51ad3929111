import Mathlib.Data.List.Nodup
import Flowgraph.Proofs.Loops.Keys
import Flowgraph.Proofs.Loops.Maps

/-!
# Loops that leave their map alone

A loop over a map that nobody changes meanwhile visits the entries that can be found again: all
entries but those whose key is not a number. The length of the map counts these as well, so the
number of visits is the length of the map exactly if every key is equal to itself.
-/

namespace Flowgraph.Loop

variable {L : Loop} {C : Course} {r : Cursor} {d : DictId} {k t t₀ : Nat} {v : Nat → Nat}
  {key value : Value} {visited : List (Value × Value)}

/-- A run through a map that is the same at every visit. The map has been built by insertions and
deletions, whatever the keys are. -/
structure Surveys (L : Loop) (C : Course) (t₀ : Nat) (d : DictId) : Prop where
  first : L.VisitedAt C t₀
  begins : L.Fresh (C.machine t₀).store
  built : ((C.machine t₀).store.dict d).Built
  held : ((C.machine t₀).store.dict d).keys.length ≤ maxValues
  ready : ∀ t, L.Pass C t₀ t → L.Ready (C.machine t).program (C.machine t).store (.map d)
  returns : ∀ t, L.Pass C t₀ t → L.Told C t → ∃ t' > t, L.VisitedAt C t'
  disregarded : ∀ t t', L.Pass C t₀ t → L.Told C t → L.Next C t t' → L.Disregarded C t t'
  same : ∀ t, L.Pass C t₀ t → (C.machine t).store.dict d = (C.machine t₀).store.dict d

lemma Surveys.traverses (h : L.Surveys C t₀ d) : L.Traverses C t₀ d :=
  ⟨h.first, h.begins, h.built.proper, h.held, h.ready, h.returns, h.disregarded⟩

/-- What a run through a map that nobody changes comes to, in visits at times `v 0`, `v 1` and so
on. -/
structure Surveyed (L : Loop) (C : Course) (t₀ : Nat) (d : DictId) (r : Cursor) (v : Nat → Nat)
    (visited : List (Value × Value)) : Prop where
  first : v 0 = t₀
  next : ∀ k < visited.length, L.Next C (v k) (v (k + 1))
  /-- There is one visit for each pair that is visited, in this order. -/
  takes : ∀ k key value, visited[k]? = some (key, value) →
    L.Takes r (C.machine (v k)) (C.machine (v k + 1)) key value
  /-- One more visit ends the loop. -/
  ends : L.Ends r (C.machine (v visited.length)) (C.machine (v visited.length + 1))
  /-- What is visited are the entries whose keys are equal to themselves. -/
  perm : visited.Perm (((C.machine t₀).store.dict d).entries.filter fun e => e.1 == e.1)
  /-- The length of the map is the number of all its entries, at each visit. -/
  measured : ∀ k ≤ visited.length, Look.length (.map d) (C.machine (v k)).store =
    .ok ((C.machine t₀).store.dict d).size
  /-- The two numbers are the same exactly if all keys are numbers, or no floats. -/
  agrees : visited.length = ((C.machine t₀).store.dict d).size ↔
    ∀ e ∈ ((C.machine t₀).store.dict d).entries, ¬e.1.IsNaN

/-- The pairs that a tour takes are the entries that can be found again. -/
lemma Tour.perm {D : Dict} (hproper : D.Proper) {N : Nat} {j : Nat → Nat}
    {keys values : Nat → Value} (hkeys : ∀ k < N, D.keys[j k]? = some (keys k))
    (hvalues : ∀ k < N, D.get? (keys k) = some (values k))
    (hforward : ∀ k l, k < l → l < N → j k < j l)
    (htaken : ∀ a key, D.keys[a]? = some key → D.get? key ≠ none → ∃ l < N, j l = a) :
    ((List.range N).map fun k => (keys k, values k)).Perm
      (D.entries.filter fun e => e.1 == e.1) := by
  have hfound : ∀ k < N, (keys k == keys k) = true ∧ (keys k, values k) ∈ D.entries := fun k hk =>
    Dict.mem_of_get? hproper (List.mem_of_getElem? (hkeys k hk)) (hvalues k hk)
  have hdifferent : ∀ k l, k < l → l < N → keys k ≠ keys l := by
    intro k l hkl hl he
    have hne := keys_different hproper (hforward k l hkl hl) (hkeys k (Nat.lt_trans hkl hl))
      (hkeys l hl)
    rw [he, (hfound l hl).1] at hne
    cases hne
  have hnodup : ((List.range N).map fun k => (keys k, values k)).Nodup := by
    refine List.Nodup.map_on (fun k hk l hl he => ?_) List.nodup_range
    have hkeys' : keys k = keys l := congrArg Prod.fst he
    rcases Nat.lt_trichotomy k l with hlt | rfl | hlt
    · exact absurd hkeys' (hdifferent k l hlt (List.mem_range.mp hl))
    · rfl
    · exact absurd hkeys'.symm (hdifferent l k hlt (List.mem_range.mp hk))
  rw [List.perm_ext_iff_of_nodup hnodup hproper.nodup_filter]
  intro e
  rw [List.mem_map, List.mem_filter]
  constructor
  · rintro ⟨k, hk, rfl⟩
    obtain ⟨hself, hmem⟩ := hfound k (List.mem_range.mp hk)
    exact ⟨hmem, hself⟩
  · rintro ⟨hmem, hself⟩
    have hget := Dict.get?_of_mem hproper hmem hself
    have hkey : e.1 ∈ D.keys := List.mem_reverse.mpr (List.mem_map_of_mem hmem)
    obtain ⟨a, ha⟩ := List.getElem?_of_mem hkey
    obtain ⟨l, hl, rfl⟩ := htaken a e.1 ha (by simp [hget])
    have he : keys l = e.1 := Option.some.inj ((hkeys l hl).symm.trans ha)
    have hv : values l = e.2 := by
      have hvalue := hvalues l hl
      rw [he, hget] at hvalue
      exact (Option.some.inj hvalue).symm
    exact ⟨l, List.mem_range.mpr hl, Prod.ext he hv⟩

/-- As many entries can be found again as there are exactly if no key is a float that is not a
number. -/
lemma length_filter_eq_size_iff (D : Dict) :
    (D.entries.filter fun e => e.1 == e.1).length = D.size ↔ ∀ e ∈ D.entries, ¬e.1.IsNaN := by
  rw [Dict.size, List.length_filter_eq_length_iff]
  refine forall₂_congr fun e _ => ?_
  exact Value.beq_self_iff e.1

/-- A complete loop over a map that nobody changes meanwhile visits exactly the entries whose keys
are equal to themselves, each once. So there are as many visits as the map is long exactly if no key
is a float that is not a number. -/
theorem surveyed {graph : Graph} {natives : Registry} {config : Config} {kept : Bool}
    {loaded : Machine} (hblind : natives.Blind) (hmodest : natives.Modest)
    (hload : Machine.load graph natives config kept = .ok loaded)
    (hm : loaded.Attains (C.machine t₀)) (h : L.Surveys C t₀ d) :
    ∃ r v visited, L.Surveyed C t₀ d r v visited := by
  obtain ⟨N, v, j, htour⟩ := h.traverses.exists_tour hblind hmodest hload hm
  have hpass := htour.pass (.first h.first)
  have hsame : ∀ k ≤ N, (C.machine (v k)).store.dict d = (C.machine t₀).store.dict d :=
    fun k hk => h.same _ (hpass k hk)
  choose! keys values hkeys hvalues htakes using htour.takes
  have hperm := Tour.perm h.built.proper hkeys
    (fun k hk => by rw [← hsame k hk.le, hvalues k hk]) htour.forward fun a key ha hget => by
      obtain ⟨k, hk, -, -, htaken⟩ := htour.turns a key (Nat.zero_le a) ha
      exact htaken.mpr (by rwa [Has, hsame k hk])
  have hlength : ((List.range N).map fun k => (keys k, values k)).length = N := by simp
  refine ⟨(C.machine t₀).store.nextCursor, v, (List.range N).map fun k => (keys k, values k),
    htour.first, ?next, ?takes, ?ends, hperm, ?measured, ?agrees⟩
  case next =>
    intro k hk
    exact htour.next k (by rwa [hlength] at hk)
  case takes =>
    intro k key value hk
    obtain ⟨hlt, he⟩ := List.getElem?_eq_some_iff.mp hk
    rw [hlength] at hlt
    simp only [List.getElem_map, List.getElem_range, Prod.mk.injEq] at he
    obtain ⟨rfl, rfl⟩ := he
    exact htakes k hlt
  case ends =>
    rw [hlength]
    exact htour.ends
  case measured =>
    intro k hk
    rw [hlength] at hk
    rw [← hsame k hk]
    rfl
  case agrees => rw [hperm.length_eq, length_filter_eq_size_iff]

/-- A map with two keys is made and gone through. One key is a float that is not a number. -/
def inspecting : Graph where
  globals := 5
  nodes := #[
    { kind := .mapLit, children := [⟨1⟩, ⟨2⟩, ⟨3⟩], slot := some 0, next := some ⟨8⟩ },
    { kind := .typeExpr },
    { kind := .keyValue, children := [⟨4⟩, ⟨5⟩] },
    { kind := .keyValue, children := [⟨6⟩, ⟨7⟩] },
    { kind := .basicLit, payload := some (.literal (.float (.ofBits 0x7FF8000000000000))) },
    { kind := .basicLit, payload := some (.literal (.int 10)) },
    { kind := .basicLit, payload := some (.literal (.int 2)) },
    { kind := .basicLit, payload := some (.literal (.int 20)) },
    { kind := .range, children := [⟨9⟩, ⟨10⟩, ⟨11⟩], slot := some 3, next := some ⟨12⟩,
      otherwise := some ⟨13⟩ },
    { kind := .ident, slot := some 1 },
    { kind := .ident, slot := some 2 },
    { kind := .ident, slot := some 0 },
    { kind := .nop, next := some ⟨8⟩ },
    { kind := .nop }]

/-- The program, as it is loaded. -/
def inspectingProgram : Program where
  graph := inspecting
  constants := #[none, none, none, none, some (.float (.ofBits 0x7FF8000000000000)),
    some (.int 10), some (.int 2), some (.int 20), none, none, none, none, none, none]
  natives := .empty
  config := {}

/-- The loop, in the first chain. -/
def inspectingLoop : Loop :=
  ⟨⟨0⟩, globalFrame, ⟨8⟩, 3, ⟨9⟩, ⟨10⟩, ⟨11⟩, some ⟨12⟩, ⟨13⟩⟩

/-- The machine when the loop begins. -/
def inspectingStart : Machine :=
  (((Machine.ofProgram inspectingProgram true).addChain (.atNode ⟨0⟩)).2.step (.run ⟨0⟩)).step
    (.run ⟨0⟩)

lemma load_inspecting :
    Machine.load inspecting .empty {} true = .ok (.ofProgram inspectingProgram true) := rfl

/-- The chain moves on and on. -/
def inspectingCourse : Course where
  machine := Course.afterMoves inspectingStart fun _ => .run ⟨0⟩
  program t t' := by rw [Course.program_afterMoves, Course.program_afterMoves]

lemma visitedAt_inspecting : inspectingLoop.VisitedAt inspectingCourse 0 :=
  ⟨⟨_, _, _, _, rfl, rfl, rfl, rfl⟩, rfl⟩

lemma next_inspecting : inspectingLoop.Next inspectingCourse 0 4 := by
  refine ⟨by decide, ⟨⟨_, _, _, _, rfl, rfl, rfl, rfl⟩, rfl⟩, fun u hu hu' => ?_⟩
  rintro ⟨⟨c, a, depth, rest, hc, hs, hw, -⟩, -⟩
  interval_cases u <;> cases hc
  all_goals cases hs
  all_goals cases hw

lemma disregarded_inspecting : inspectingLoop.Disregarded inspectingCourse 0 4 := by
  intro u hu hu'
  interval_cases u
  all_goals exact .move (.run ⟨0⟩) fun v => by rfl

lemma told_inspecting :
    inspectingLoop.Told inspectingCourse 0 ∧ ¬inspectingLoop.Told inspectingCourse 4 := by
  constructor
  · rfl
  · intro h
    cases h

lemma pass_inspecting {t : Nat} (h : inspectingLoop.Pass inspectingCourse 0 t) : t = 0 ∨ t = 4 :=
  h.eq_or_eq next_inspecting told_inspecting.2

lemma ready_inspecting : ∀ t, t = 0 ∨ t = 4 →
    inspectingLoop.Ready (inspectingCourse.machine t).program (inspectingCourse.machine t).store
      (.map ⟨0⟩) := by
  rintro t (rfl | rfl)
  all_goals
    exact ⟨⟨_, rfl, rfl, rfl, rfl, rfl, rfl, rfl, rfl, rfl⟩, (by decide),
      ⟨_, .slot rfl rfl rfl (by decide)⟩, ⟨_, .slot rfl rfl rfl (by decide)⟩, rfl⟩

lemma attains_inspecting :
    (Machine.ofProgram inspectingProgram true).Attains inspectingStart := by
  have hwithin := within_atNode (n := (Machine.ofProgram inspectingProgram true).store.size)
    Nat.zero_lt_one ⟨0⟩
  exact ((Machine.Attains.start.host (.atNode ⟨0⟩) hwithin).move (.run ⟨0⟩)).move (.run ⟨0⟩)

/-- The map, with both entries. -/
lemma dict_inspecting : (inspectingCourse.machine 0).store.dict ⟨0⟩ =
    ⟨[(.float (.ofBits 0x7FF8000000000000), .int 10), (.int 2, .int 20)]⟩ := rfl

lemma surveys_inspecting : inspectingLoop.Surveys inspectingCourse 0 ⟨0⟩ := by
  constructor
  case first => exact visitedAt_inspecting
  case begins => exact .inl rfl
  case built =>
    rw [dict_inspecting]
    exact (Dict.Built.empty.insert (.float (.ofBits 0x7FF8000000000000)) (.int 10)).insert (.int 2)
      (.int 20)
  case held =>
    rw [dict_inspecting]
    decide
  case ready => exact fun t ht => ready_inspecting t (pass_inspecting ht)
  case returns =>
    intro t ht htold
    rcases pass_inspecting ht with rfl | rfl
    · exact ⟨4, by decide, next_inspecting.visited⟩
    · exact absurd htold told_inspecting.2
  case disregarded =>
    intro t t' ht htold hnext
    rcases pass_inspecting ht with rfl | rfl
    · exact hnext.unique next_inspecting ▸ disregarded_inspecting
    · exact absurd htold told_inspecting.2
  case same =>
    intro t ht
    rcases pass_inspecting ht with rfl | rfl <;> rfl

theorem surveyed_inspecting : ∃ r v,
    inspectingLoop.Surveyed inspectingCourse 0 ⟨0⟩ r v [(.int 2, .int 20)] ∧
    ((inspectingCourse.machine 0).store.dict ⟨0⟩).size = 2 := by
  have hnatives : Registry.empty.Blind ∧ Registry.empty.Modest :=
    ⟨fun _ he => absurd he List.not_mem_nil, fun _ he => absurd he List.not_mem_nil⟩
  obtain ⟨r, v, visited, h⟩ := surveyed hnatives.1 hnatives.2 load_inspecting attains_inspecting
    surveys_inspecting
  have hperm := h.perm
  have hfilter : ((inspectingCourse.machine 0).store.dict ⟨0⟩).entries.filter
      (fun e => e.1 == e.1) = [(.int 2, .int 20)] := rfl
  rw [hfilter] at hperm
  rw [List.perm_singleton.mp hperm] at h
  exact ⟨r, v, h, rfl⟩

end Flowgraph.Loop
