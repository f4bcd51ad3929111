import Mathlib.Tactic.Common
import Flowgraph.Proofs.Maps.Hashing
import Flowgraph.Proofs.Maps.Runs
import Flowgraph.Proofs.Texts.Views

/-!
# Maps are functions

A map is a function on values up to equality, whoever writes to it and under whatever name. When
everything that is done to maps is logged, what a node or a host finds under a key is what was
written there last and has not been deleted.
-/

namespace Flowgraph

open Named Flowgraph.Graph

/-! ### Operations on maps -/

namespace Program

variable {p : Program} {s t u : Store} {f : FrameId} {id : NodeId} {n : Node} {d : DictId}
  {k v w : Value} {L : Log}

lemma perform_assignMap (hn : p.node id = .ok n) (hk : n.kind = .assignMap)
    (h : p.assignment f id s = .ok (.map d, k, v)) :
    p.perform f id s = .ok .done (s.insertEntry d k v) := by
  rw [perform_of_node hn, hk]
  refine completely_apply ?_
  rw [assignMap_eq, Op.look_bind_apply, h]
  rfl

lemma perform_assignMap_nil (hn : p.node id = .ok n) (hk : n.kind = .assignMap)
    (h : p.assignment f id s = .ok (.nil, k, v)) :
    p.perform f id s = .error (.fault .nilMap) s := by
  rw [perform_of_node hn, hk]
  show completely (p.assignMap f id) s = _
  rw [completely, Op.bind_apply, assignMap_eq, Op.look_bind_apply, h]
  rfl

/-- What is found under a key is the result. -/
lemma answers_indexMap {m : Value} (hn : p.node id = .ok n) (hk : n.kind = .indexMap)
    (hm : p.operand f id 0 s = .ok m) (hkey : p.operand f id 1 s = .ok k)
    (h : Look.entry m k s = .ok (some v)) : p.Answers f id s (.ok v) := by
  refine answers_of_eq hn (by rw [hk]; rfl) ?_
  simp only [indexMap, Op.look_bind_apply, Op.except_bind_apply, hm, hkey, h]

/-- If nothing is found, the result is a new zero value. -/
lemma perform_indexMap_absent {m : Value} (hn : p.node id = .ok n) (hk : n.kind = .indexMap)
    (hm : p.operand f id 0 s = .ok m) (hkey : p.operand f id 1 s = .ok k)
    (h : Look.entry m k s = .ok none) :
    p.perform f id s = completely (p.graph.zero n.type >>= p.setOwn f id) s := by
  rw [perform_of_node hn, hk]
  show completely (p.indexMap f id) s = _
  rw [completely, completely, Op.bind_apply, Op.bind_apply]
  simp only [indexMap, Op.look_bind_apply, Op.except_bind_apply, hm, hkey, h, hn]

/-- A zero value is made for a key that is not there, unless it is too large. -/
lemma zero_of_absent {m : Value} (hn : p.node id = .ok n) (hk : n.kind = .indexMap)
    (hm : p.operand f id 0 s = .ok m) (hkey : p.operand f id 1 s = .ok k)
    (h : Look.entry m k s = .ok none) (htype : ∀ a, n.type = some a → p.graph.Founded a) :
    (¬p.graph.TooLarge [n.type] → ∃ z t, s.Extended t ∧ p.graph.Zeroed t n.type z ∧
      p.perform f id s = completely (p.setOwn f id z) t) ∧
    (p.graph.TooLarge [n.type] → ∃ t, p.perform f id s = .error .tooLarge t) := by
  have hmakes := makes_zero htype
  rw [perform_indexMap_absent hn hk hm hkey h]
  constructor
  · intro hfit
    obtain ⟨z, t, hzero, hext, hz⟩ := hmakes.ok hfit s
    refine ⟨z, t, hext, (List.forall₂_cons.mp hz.shapes).1, ?_⟩
    simp only [completely, Op.bind_apply, hzero]
  · intro hlarge
    obtain ⟨t, hzero⟩ := hmakes.error hlarge s
    exact ⟨t, by simp only [completely, Op.bind_apply, hzero]⟩

/-! ### Literals and assignments -/

/-- Nodes assign pairs to a map, one after the other, wherever they are performed. -/
inductive Inserts (p : Program) (d : DictId) : List (Value × Value) → Store → Store → Prop
  | nil {s : Store} : Inserts p d [] s s
  | cons {k v : Value} {pairs : List (Value × Value)} {s t u : Store} {f : FrameId} {id : NodeId}
    {n : Node} {pending : Pending} (node : p.node id = .ok n) (kind : n.kind = .assignMap)
    (assignment : p.assignment f id s = .ok (.map d, k, v))
    (done : p.perform f id s = .ok pending t) (rest : Inserts p d pairs t u) :
    Inserts p d ((k, v) :: pairs) s u

/-- Assigning pairs to a new map is making it with these pairs. -/
lemma Inserts.eq {pairs : List (Value × Value)} {D : Dict} {i : Nat}
    (h : p.Inserts s.nextDict pairs ((s.newDict D).2.setSlot f i w) u) :
    u = (s.newDict (pairs.foldl (fun (D : Dict) (k, v) => D.insert k v) D)).2.setSlot f i w := by
  generalize ht : (s.newDict D).2.setSlot f i w = t at h
  induction h generalizing D with
  | nil => exact ht.symm
  | cons hn hk ha hdone _ ih =>
    subst ht
    rw [perform_assignMap hn hk ha] at hdone
    cases hdone
    exact ih (s.insertEntry_newDict D f i w _ _).symm

/-- A literal makes a new map with its pairs. -/
lemma answers_mapLit {pairs : List (Value × Value)} (hn : p.node id = .ok n)
    (hk : n.kind = .mapLit) (hpairs : p.pairs f n s = .ok pairs) :
    p.perform f id s = completely (p.setOwn f id (.map s.nextDict))
      (s.newDict (pairs.foldl (fun (D : Dict) (k, v) => D.insert k v) {})).2 := by
  rw [perform_of_node hn, hk]
  show completely (p.mapLit f id) s = _
  rw [completely, completely, Op.bind_apply, Op.bind_apply, mapLit_eq hn, Op.look_bind_apply,
    hpairs]
  rfl

/-- A result that has been stored is in the node's own slot. -/
lemma of_setOwn {pending : Pending} (hn : p.node id = .ok n)
    (h : completely (p.setOwn f id v) s = .ok pending t) :
    ∃ i, n.slot = some i ∧ i < s.frameSize f ∧ t = s.setSlot f i v := by
  rw [completely, Op.bind_apply, setOwn, Op.except_bind_apply, hn] at h
  dsimp only at h
  cases hi : n.slot with
  | none =>
    rw [hi] at h
    cases h
  | some i =>
    rw [hi] at h
    by_cases hlt : i < s.frameSize f
    · dsimp only at h
      rw [setSlot_apply hlt] at h
      cases h
      exact ⟨i, rfl, hlt, rfl⟩
    · dsimp only at h
      rw [Op.setSlot, Op.bind_apply, Op.get_apply] at h
      dsimp only at h
      rw [if_neg hlt] at h
      cases h

/-- A literal with pairs comes to the same as one without pairs and assignments of the pairs. -/
lemma perform_mapLit_of_inserts {pairs : List (Value × Value)} {empty : NodeId} {n₀ : Node}
    (hn : p.node id = .ok n) (hk : n.kind = .mapLit) (hpairs : p.pairs f n s = .ok pairs)
    (hn₀ : p.node empty = .ok n₀) (hk₀ : n₀.kind = .mapLit) (hpairs₀ : p.pairs f n₀ s = .ok [])
    (hslot : n.slot = n₀.slot) (hdone : p.perform f empty s = .ok .done t)
    (h : p.Inserts s.nextDict pairs t u) : p.perform f id s = .ok .done u := by
  rw [answers_mapLit hn₀ hk₀ hpairs₀] at hdone
  obtain ⟨i, hi, hlt, rfl⟩ := of_setOwn hn₀ hdone
  have hlt' : ∀ D, i < (s.newDict D).2.frameSize f := fun _ => hlt
  rw [answers_mapLit hn hk hpairs, h.eq]
  exact completely_apply (setOwn_apply hn (hslot.trans hi) (hlt' _) _)

end Program

/-! ### Maps as functions -/

/-- What is found in the maps of a store when all that has been done to them is logged. A map is
known by the dictionary that its handles name, so it does not matter through which of them it has
been written. -/
structure Program.MapsFunctional (p : Program) (s : Store) (L : Log) : Prop where
  /-- Nothing else has been written last. -/
  unique : ∀ d k v w, Dict.Latest (Log.of L d) k v → Dict.Latest (Log.of L d) k w → v = w
  /-- A host finds under a key what was written there last and has not been deleted. -/
  found : ∀ d k v, (s.dict d).get? k = some v ↔ Dict.Latest (Log.of L d) k v
  contained : ∀ d k, (s.dict d).contains k = true ↔ ∃ v, Dict.Latest (Log.of L d) k v
  /-- It finds the same under equal keys. -/
  alike : ∀ d k l, (k == l) = true → (s.dict d).get? k = (s.dict d).get? l
  /-- It finds the same if the keys are hashed. -/
  hashed : ∀ hash d k, (s.dict d).probe hash k = (s.dict d).get? k
  /-- A deletion returns what a read would have given. -/
  removed : ∀ d k, (s.dict d).remove k = ((s.dict d).get? k, (s.dict d).erase k)
  /-- A node that reads finds what was written last. -/
  read : ∀ f id n d k v, p.node id = .ok n → n.kind = .indexMap →
    p.operand f id 0 s = .ok (.map d) → p.operand f id 1 s = .ok k →
    Dict.Latest (Log.of L d) k v → p.Answers f id s (.ok v)
  /-- Under a key that is not there, and in a nil map, it finds a zero value of its type, unless
  that is too large. -/
  absent : ∀ f id n m k, p.node id = .ok n → n.kind = .indexMap → p.operand f id 0 s = .ok m →
    p.operand f id 1 s = .ok k →
    (m = .nil ∨ ∃ d, m = .map d ∧ ∀ v, ¬Dict.Latest (Log.of L d) k v) →
    (∀ a, n.type = some a → p.graph.Founded a) →
    (¬p.graph.TooLarge [n.type] → ∃ z t, s.Extended t ∧ p.graph.Zeroed t n.type z ∧
      p.perform f id s = Program.completely (p.setOwn f id z) t) ∧
    (p.graph.TooLarge [n.type] → ∃ t, p.perform f id s = .error .tooLarge t)
  /-- A key is stored in the form in which it was written first. -/
  stored : ∀ d k k', k' ∈ (s.dict d).keys ∧ (k' == k) = true ↔ Dict.Stored (Log.of L d) k k'
  /-- If keys are equal to themselves, the stored forms are all keys that are present, each once. -/
  enumerated : ∀ d, (∀ c ∈ Log.of L d, (c.key == c.key) = true) →
    Dict.Enumerates (Log.of L d) (s.dict d).keys
  /-- The length is the number of keys that are present. -/
  sized : ∀ d ks, (∀ c ∈ Log.of L d, (c.key == c.key) = true) →
    Dict.Enumerates (Log.of L d) ks → (s.dict d).size = ks.length
  measured : ∀ f id n d, p.node id = .ok n → n.kind = .len → p.operand f id 1 s = .ok (.map d) →
    p.Answers f id s (.ok (.ofNat (s.dict d).size))
  measuredNil : ∀ f id n, p.node id = .ok n → n.kind = .len → p.operand f id 1 s = .ok .nil →
    p.Answers f id s (.ok (.ofNat 0))
  written : ∀ f id n d k v, p.node id = .ok n → n.kind = .assignMap →
    p.assignment f id s = .ok (.map d, k, v) →
    p.perform f id s = .ok .done (s.insertEntry d k v)
  writtenNil : ∀ f id n k v, p.node id = .ok n → n.kind = .assignMap →
    p.assignment f id s = .ok (.nil, k, v) → p.perform f id s = .error (.fault .nilMap) s
  /-- A literal with pairs comes to the same as one without pairs and assignments of the pairs. -/
  literal : ∀ f id n empty n₀ pairs t u, p.node id = .ok n → n.kind = .mapLit →
    p.pairs f n s = .ok pairs → p.node empty = .ok n₀ → n₀.kind = .mapLit →
    p.pairs f n₀ s = .ok [] → n.slot = n₀.slot → p.perform f empty s = .ok .done t →
    p.Inserts s.nextDict pairs t u → p.perform f id s = .ok .done u
  /-- Only assignments to maps and literals of maps change what is in maps. -/
  untouched : ∀ f id n, p.node id = .ok n → n.kind ≠ .assignMap → n.kind ≠ .mapLit →
    Op.Leads s (fun t => ∀ d, t.dict d = s.dict d) (p.perform f id) fun _ => True

lemma Program.mapsFunctional_of_records {p : Program} {s : Store} {L : Log}
    (hL : s.Records L) : p.MapsFunctional s L where
  unique _ _ _ _ hv hw := Dict.latest_unique hv hw
  found d k v := by
    rw [hL d]
    exact Dict.get?_ofChanges _ k v
  contained d k := by
    rw [hL d]
    exact Dict.contains_ofChanges _ k
  alike _ _ _ hkl := Dict.get?_congr hkl _
  hashed hash d k := Dict.probe_eq_get? hash _ k
  removed d k := Dict.remove_eq _ k
  stored d k k' := by
    rw [hL d]
    exact Dict.mem_keys_ofChanges _ k k'
  enumerated d hself := by
    rw [hL d]
    exact Dict.enumerates_keys hself
  sized d ks hself hks := by
    rw [hL d]
    exact Dict.size_ofChanges hself hks
  measured _ _ _ _ hn hk hm := answers_len hn hk hm
  measuredNil _ _ _ hn hk hm := answers_len hn hk hm
  read f id n d k v hn hk hm hkey hv := by
    refine answers_indexMap hn hk hm hkey ?_
    rw [← Dict.get?_ofChanges, ← hL d] at hv
    exact congrArg Except.ok hv
  absent f id n m k hn hk hm hkey hnone htype := by
    refine zero_of_absent hn hk hm hkey ?_ htype
    obtain rfl | ⟨d, rfl, hnone⟩ := hnone
    · rfl
    · rw [← Dict.get?_ofChanges_eq_none, ← hL d] at hnone
      exact congrArg Except.ok hnone
  untouched f id n hn hassign hlit := by
    refine ((keeps_records (L := L) fun n' hn' => ?_).leads hL).mono
      (fun t ht d => (ht d).trans (hL d).symm) fun _ _ => trivial
    rw [hn] at hn'
    cases hn'
    exact ⟨hassign, hlit⟩
  written _ _ _ _ _ _ hn hk ha := perform_assignMap hn hk ha
  writtenNil _ _ _ _ _ hn hk ha := perform_assignMap_nil hn hk ha
  literal _ _ _ _ _ _ _ _ hn hk hpairs hn₀ hk₀ hpairs₀ hslot hdone h :=
    perform_mapLit_of_inserts hn hk hpairs hn₀ hk₀ hpairs₀ hslot hdone h

/-- Whatever a host does with a machine, through whatever handles: maps are functions on values up
to equality, and hold what was written to them last. -/
theorem Machine.maps_functional {graph : Graph} {natives : Registry} {config : Config}
    {kept : Bool} {loaded m : Machine} {L : Log} (hblind : natives.Blind)
    (hload : Machine.load graph natives config kept = .ok loaded) (hm : loaded.Logged L m) :
    m.program.MapsFunctional m.store L := by
  have hkept := Machine.kept_of_load hblind hload
  obtain ⟨p, -, rfl⟩ := Machine.of_load hload
  exact Program.mapsFunctional_of_records
    (hm.records hkept (fun x c hc => by cases hc) rfl)

/-- A map is made with one key, shared by two variables, and written to through the second under a
key that is equal to the first. -/
def sharing : Graph where
  globals := 3
  types := #[.int]
  nodes := #[
    { kind := .mapLit, children := [⟨1⟩, ⟨2⟩], slot := some 0, next := some ⟨5⟩ },
    { kind := .typeExpr },
    { kind := .keyValue, children := [⟨3⟩, ⟨4⟩] },
    { kind := .basicLit, payload := some (.literal (.float 0.0)) },
    { kind := .basicLit, payload := some (.literal (.int 10)) },
    { kind := .assign, children := [⟨6⟩, ⟨7⟩], next := some ⟨8⟩ },
    { kind := .ident, slot := some 1 },
    { kind := .ident, slot := some 0 },
    { kind := .assignMap, children := [⟨9⟩, ⟨11⟩] },
    { kind := .indexMap, children := [⟨6⟩, ⟨10⟩] },
    { kind := .basicLit, payload := some (.literal (.float (-0.0))) },
    { kind := .basicLit, payload := some (.literal (.int 20)) },
    { kind := .indexMap, children := [⟨7⟩, ⟨3⟩], slot := some 2, type := some ⟨0⟩ },
    { kind := .len, children := [⟨1⟩, ⟨7⟩], slot := some 2 }]

/-- The program, as it is loaded. -/
def sharingProgram : Program where
  graph := sharing
  constants := #[none, none, none, some (.float 0.0), some (.int 10), none, none, none, none, none,
    some (.float (-0.0)), some (.int 20), none, none]
  natives := .empty
  config := {}

/-- The machine after the assignment through the second variable. -/
def sharingEnd : Machine :=
  let begun := ((Machine.ofProgram sharingProgram true).addChain (.atNode ⟨0⟩)).2
  ((((begun.step (.run ⟨0⟩)).step (.run ⟨0⟩)).step (.run ⟨0⟩)).step (.run ⟨0⟩)).step (.run ⟨0⟩)

lemma logged_sharing : (Machine.ofProgram sharingProgram true).Logged
    [(⟨0⟩, .put (.float (-0.0)) (.int 20)), (⟨0⟩, .put (.float 0.0) (.int 10))] sharingEnd := by
  have hwithin := within_atNode (n := (Machine.ofProgram sharingProgram true).store.size)
    Nat.zero_lt_one ⟨0⟩
  exact (((((Machine.Logged.start.host (.atNode ⟨0⟩) hwithin).move (.run ⟨0⟩)).move
    (.run ⟨0⟩)).move (.run ⟨0⟩)).move (.run ⟨0⟩)).move (.run ⟨0⟩)

/-- What was written through the second variable is read through the first, even when a host has put
another key into the map and deleted it. -/
theorem Machine.maps_functional_sharing : ∃ start m L,
    Machine.load sharing .empty {} true = .ok start ∧ start.Logged L m ∧
    m.program.Answers globalFrame ⟨12⟩ m.store (.ok (.int 20)) ∧
    m.program.Answers globalFrame ⟨13⟩ m.store (.ok (.ofNat 1)) := by
  have hload : Machine.load sharing .empty {} true = .ok (.ofProgram sharingProgram true) := rfl
  have hwithin : ∀ i, Within sharingEnd.store.size (Value.int i) := fun i T k hk => hk.elim
  have hlogged := (logged_sharing.put (d := ⟨0⟩) (by decide) (hwithin 1) (hwithin 30)).delete ⟨0⟩
    (.int 1)
  have happly := Machine.maps_functional (fun _ he => absurd he List.not_mem_nil) hload hlogged
  refine ⟨_, _, _, hload, hlogged, ?_, ?_⟩
  · refine happly.read _ _ _ ⟨0⟩ (.float 0.0) _ rfl rfl rfl rfl ?_
    exact ⟨[.delete (.int 1), .put (.int 1) (.int 30)], .float (-0.0),
      [.put (.float 0.0) (.int 10)], rfl, rfl, by decide⟩
  · exact happly.measured _ _ _ ⟨0⟩ rfl rfl rfl

/-- An empty map is made. A node that reads from it has the type of arrays that cannot be held in
one piece. -/
def seeking : Graph where
  globals := 2
  types := #[.int, .array ⟨0⟩ 4611686018427387904]
  nodes := #[
    { kind := .mapLit, children := [⟨1⟩], slot := some 0 },
    { kind := .typeExpr },
    { kind := .indexMap, children := [⟨3⟩, ⟨4⟩], slot := some 1, type := some ⟨1⟩ },
    { kind := .ident, slot := some 0 },
    { kind := .basicLit, payload := some (.literal (.int 1)) }]

/-- The program, as it is loaded. -/
def seekingProgram : Program where
  graph := seeking
  constants := #[none, none, none, none, some (.int 1)]
  natives := .empty
  config := {}

/-- The type is not nested in itself, and yet nothing is read under a key that is not there. -/
theorem Program.not_read_seeking : seeking.Founded ⟨1⟩ ∧ ∃ s t,
    seekingProgram.perform globalFrame ⟨0⟩ s = .ok .done t ∧
    seekingProgram.operand globalFrame ⟨2⟩ 0 t = .ok (.map ⟨0⟩) ∧
    seekingProgram.operand globalFrame ⟨2⟩ 1 t = .ok (.int 1) ∧
    (t.dict ⟨0⟩).get? (.int 1) = none ∧
    ∀ pending u, seekingProgram.perform globalFrame ⟨2⟩ t ≠ .ok pending u := by
  have hint : seeking.type? ⟨0⟩ = some .int := rfl
  have harray : seeking.type? ⟨1⟩ = some (.array ⟨0⟩ 4611686018427387904) := rfl
  have hfounded : seeking.Founded ⟨1⟩ := by
    refine .intro harray fun b hb => ?_
    rw [List.mem_singleton.mp hb]
    exact .intro hint fun c hc => absurd hc List.not_mem_nil
  have hlarge : seeking.TooLarge [some ⟨1⟩] := tooLarge_singleton.mpr (.array harray (by decide))
  have hnode : seekingProgram.node ⟨2⟩ = .ok
      { kind := .indexMap, children := [⟨3⟩, ⟨4⟩], slot := some 1, type := some ⟨1⟩ } := rfl
  have hread : ∀ t, seekingProgram.operand globalFrame ⟨2⟩ 0 t = .ok (.map ⟨0⟩) →
      Look.entry (.map ⟨0⟩) (.int 1) t = .ok none →
      ∃ u, seekingProgram.perform globalFrame ⟨2⟩ t = .error .tooLarge u := fun t hm hnone =>
    (zero_of_absent hnode rfl hm rfl hnone fun a ha => Option.some.inj ha ▸ hfounded).2 hlarge
  let s := (Machine.ofProgram seekingProgram true).store
  let t := (s.newDict {}).2.setSlot globalFrame 0 (.map ⟨0⟩)
  refine ⟨hfounded, s, t, rfl, rfl, rfl, rfl, fun pending u hdone => ?_⟩
  obtain ⟨v, hv⟩ := hread t rfl rfl
  rw [hdone] at hv
  cases hv

end Flowgraph
