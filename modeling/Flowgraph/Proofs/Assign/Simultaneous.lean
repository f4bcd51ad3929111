import Mathlib.Data.List.OfFn
import Flowgraph.Proofs.Assign.Reading
import Flowgraph.Proofs.Pointers.Elements

/-!
# Assignment is simultaneous

Three operations store several values at once: an assignment, an assignment that is spread from the
results of a call, and the return from a function. Each reads all that it stores before it stores
any of it. So the first source that is not there stops the operation before anything is changed,
and otherwise every destination gets what its source had held.
-/

namespace Flowgraph

namespace Program

variable {p : Program} {s : Store} {f : FrameId} {id c d : NodeId} {b level : Nat}
  {ds cs : List NodeId} {ts : List (Option Site)} {vs : List Value}

/-! ### Reading first and storing then -/

/-- What becomes of an operation of a node. -/
abbrev Result := EStateM.Result Stop Store Pending

/-- Take the values that a look finds, and store them into destinations. -/
def storing (p : Program) (f : FrameId) (ds : List NodeId) (look : Look (List Value)) :
    Op Pending :=
  completely do
    let vs ← look
    p.assignAll f ds vs

variable {look : Look (List Value)}

lemma storing_apply (p : Program) (f : FrameId) (ds : List NodeId) (look : Look (List Value))
    (s : Store) : p.storing f ds look s = match look s with
      | .ok vs => completely (p.assignAll f ds vs) s
      | .error e => .error e s := by
  rw [storing, completely, Op.bind_apply, Op.look_bind_apply]
  cases look s with
  | error e => rfl
  | ok vs =>
    dsimp only
    rw [completely, Op.bind_apply]

/-- Nothing is changed when the values are not found. -/
lemma storing_error {e : Stop} (h : look s = .error e) : p.storing f ds look s = .error e s := by
  rw [storing_apply, h]

lemma storing_ok (h : look s = .ok vs) (hts : List.Forall₂ (p.Targets s f) ds ts)
    (hlen : ts.length = vs.length) :
    p.storing f ds look s = .ok .done (s.writeAll (ts.zip vs)) := by
  rw [storing_apply, h]
  exact completely_apply (assignAll_apply hts hlen)

/-- Two looks that find the same store the same. -/
lemma storing_congr {look' : Look (List Value)} (h : look s = look' s) :
    p.storing f ds look s = p.storing f ds look' s := by
  rw [storing_apply, storing_apply, h]

/-- A node assigns sources to as many destinations. -/
structure Assigns (p : Program) (id : NodeId) (ds cs : List NodeId) : Prop where
  node : ∃ n, p.node id = .ok n ∧ n.kind = .assign ∧ n.children = ds ++ cs
  length : ds.length = cs.length
  pos : 0 < cs.length

/-- A node spreads the results of a source over destinations. -/
structure Spreads (p : Program) (id : NodeId) (ds : List NodeId) (c : NodeId) (b level : Nat) :
    Prop where
  node : ∃ n, p.node id = .ok n ∧ n.kind = .assignSpread ∧ n.children = ds ++ [c]
  source : ∃ n, p.node c = .ok n ∧ n.slot = some b ∧ n.level = level
  pos : 0 < ds.length

/-- A node returns expressions of a single value each. -/
structure Returns (p : Program) (id : NodeId) (cs : List NodeId) : Prop where
  node : ∃ n, p.node id = .ok n ∧ n.kind = .ret ∧ n.children = cs
  single : ∀ c ∈ cs, ∀ n, p.node c = .ok n → n.slot = none ∨ n.width ≤ 1
  pos : 0 < cs.length

lemma Assigns.perform (h : p.Assigns id ds cs) (f : FrameId) (s : Store) :
    p.perform f id s = p.storing f ds (cs.mapM (p.value f)) s := by
  obtain ⟨⟨n, hn, hk, hchildren⟩, hlen, hpos⟩ := h
  have htotal : (ds ++ cs).length = 2 * ds.length := by rw [List.length_append]; omega
  have heven : ¬((ds ++ cs).isEmpty || (ds ++ cs).length % 2 != 0) = true := by
    rw [htotal, Nat.mul_mod_right]
    simp only [bne_self_eq_false, Bool.or_false, List.isEmpty_iff]
    intro hnil
    rw [hnil, List.length_nil] at htotal
    omega
  have hhalf : (ds ++ cs).length / 2 = ds.length := by omega
  rw [perform_of_node hn, hk]
  change completely (p.assign f id) s = _
  rw [storing, completely, completely, Op.bind_apply, Op.bind_apply, Program.assign,
    Op.except_bind_apply, hn]
  dsimp only
  rw [hchildren, if_neg heven, hhalf, List.drop_left, List.take_left]

lemma Spreads.perform {b : Nat} (h : p.Spreads id ds c b level) (f : FrameId) (s : Store) :
    p.perform f id s = p.storing f ds (slotsAt f level b ds.length c) s := by
  obtain ⟨⟨n, hn, hk, hchildren⟩, ⟨m, hm, hslot, rfl⟩, -⟩ := h
  rw [perform_of_node hn, hk]
  change completely (p.assignSpread f id) s = _
  rw [storing, completely, completely, Op.bind_apply, Op.bind_apply, Program.assignSpread,
    Op.except_bind_apply, hn]
  dsimp only
  rw [hchildren, List.getLast?_concat, List.dropLast_concat]
  dsimp only
  rw [Op.except_bind_apply, hm]
  dsimp only
  rw [hslot]

/-! ### The first slots of a frame -/

/-- Variables of the first slots of the current frame denote them. -/
lemma targets_leading {k : Nat} (hk : k ≤ s.frameSize f) (hlen : ds.length = k)
    (h : ∀ j d, ds[j]? = some d → p.Variable d j 0) :
    List.Forall₂ (p.Targets s f) ds (Store.consecutive f 0 k) := by
  refine List.forall₂_iff_get.mpr ⟨by rw [Store.length_consecutive, hlen], fun j hj hj' => ?_⟩
  have hd := h j ds[j] (List.getElem?_eq_getElem hj)
  have hsite : (Store.consecutive f 0 k).get ⟨j, hj'⟩ = some (f, j) := by
    have hget : (Store.consecutive f 0 k)[j]? = some (some (f, 0 + j)) :=
      Store.getElem?_consecutive (hlen ▸ hj)
    rw [List.getElem?_eq_getElem hj', Nat.zero_add] at hget
    exact Option.some.inj hget
  rw [hsite, List.get_eq_getElem]
  exact VariableAt.targets ⟨0, hd, rfl, by dsimp only; omega⟩

/-- A return reads all its expressions and stores their values from the first slot on. -/
lemma Returns.perform (h : p.Returns id cs) (hk : cs.length ≤ s.frameSize f) :
    p.perform f id s = match (cs.mapM (p.value f) : Look (List Value)) s with
      | .ok vs => .ok .done (s.writeAll ((Store.consecutive f 0 vs.length).zip vs))
      | .error e => .error e s := by
  obtain ⟨⟨n, hn, hkind, rfl⟩, hsingle, -⟩ := h
  rw [perform_of_node hn, hkind]
  change completely (p.ret f id) s = _
  rw [completely, Op.bind_apply, ret, Op.except_bind_apply, hn]
  dsimp only
  rw [Op.look_bind_apply, allValues_single hsingle]
  cases hvs : (n.children.mapM (p.value f) : Look (List Value)) s with
  | error e => rfl
  | ok vs =>
    have hlen : vs.length ≤ s.frameSize f := by
      rw [← (Look.forall₂_of_mapM hvs).length_eq]
      exact hk
    dsimp only
    rw [Op.setSlots_apply, if_pos (.inr (by omega)), Store.putAll_eq]
    rfl

/-! ### What the operations do -/

/-- An operation that reads sources stops with the first one that is not there, and changes
nothing. -/
def StopsAtFirst (p : Program) (s : Store) (f : FrameId) (cs : List NodeId) (r : Result) : Prop :=
  ∀ before c after e, cs = before ++ c :: after → (∀ b ∈ before, ∃ v, p.value f b s = .ok v) →
    p.value f c s = .error e → r = .error e s

/-- An operation leaves values stored into sites, and is done. -/
def StoresInto (s : Store) (ts : List (Option Site)) (vs : List Value) (r : Result) : Prop :=
  ∃ s', r = .ok .done s' ∧ s.Stored ts vs s'

/-- What an assignment does. -/
structure Simultaneous (p : Program) (s : Store) (f : FrameId) (ds cs : List NodeId)
    (r : Result) : Prop where
  stops : p.StopsAtFirst s f cs r
  stores : ∀ ts vs, List.Forall₂ (p.Targets s f) ds ts →
    List.Forall₂ (fun c v => p.value f c s = .ok v) cs vs → StoresInto s ts vs r
  /-- Variables of different slots can be permuted in every way. -/
  permutes : ∀ (k : Nat) (d : Fin k → NodeId) (l : Fin k → Site) (σ : Fin k → Fin k),
    Function.Injective l → (∀ j, p.VariableAt s f (d j) (l j)) →
    ds = List.ofFn d → cs = List.ofFn (d ∘ σ) →
    ∃ s', r = .ok .done s' ∧ ∀ j, s'.slot? (l j).1 (l j).2 = s.slot? (l (σ j)).1 (l (σ j)).2

/-- What an assignment does that is spread from consecutive slots of the frame at a level. -/
structure SpreadOut (p : Program) (s : Store) (f : FrameId) (id : NodeId) (ds : List NodeId)
    (b level : Nat) : Prop where
  /-- Where all the slots are there, it is the assignment of their variables. -/
  same : ∀ g, s.ancestor? f level = some g → b + ds.length ≤ s.frameSize g →
    ∀ a cs, p.Assigns a ds cs → (∀ j c, cs[j]? = some c → p.Variable c (b + j) level) →
      p.perform f id s = p.perform f a s
  stores : ∀ g vs ts, s.ancestor? f level = some g → s.range? g b ds.length = some vs →
    List.Forall₂ (p.Targets s f) ds ts → StoresInto s ts vs (p.perform f id s)
  /-- Where one of them is missing, so does the assignment of their variables, and neither changes
  anything. -/
  fails : (∀ g, s.ancestor? f level = some g → s.frameSize g < b + ds.length) →
    (∃ e, p.perform f id s = .error (.fault e) s) ∧
    ∀ a cs, p.Assigns a ds cs → (∀ j c, cs[j]? = some c → p.Variable c (b + j) level) →
      ∃ e, p.perform f a s = .error (.fault e) s

/-- What a return does in a frame that has slots for all results. -/
structure Returned (p : Program) (s : Store) (f : FrameId) (id : NodeId) (cs : List NodeId) :
    Prop where
  /-- It is the assignment to variables of the first slots. -/
  same : ∀ a ds, p.Assigns a ds cs → (∀ j d, ds[j]? = some d → p.Variable d j 0) →
    p.perform f id s = p.perform f a s
  stops : p.StopsAtFirst s f cs (p.perform f id s)
  stores : ∀ vs, List.Forall₂ (fun c v => p.value f c s = .ok v) cs vs →
    StoresInto s (Store.consecutive f 0 cs.length) vs (p.perform f id s)

lemma storesInto_writeAll (hlen : ts.length = vs.length)
    (hts : ∀ l, some l ∈ ts → l.2 < s.frameSize l.1) :
    StoresInto s ts vs (.ok .done (s.writeAll (ts.zip vs))) :=
  ⟨_, rfl, Store.stored_writeAll hlen hts⟩

/-- Sites of destinations are slots that are there. -/
lemma lt_of_targets (h : List.Forall₂ (p.Targets s f) ds ts) {l : Site} (hl : some l ∈ ts) :
    l.2 < s.frameSize l.1 := by
  obtain ⟨j, hj, hget⟩ := List.getElem_of_mem hl
  have hd := h.get (h.length_eq ▸ hj) hj
  rw [List.get_eq_getElem, List.get_eq_getElem, hget] at hd
  exact hd.lt

lemma Assigns.simultaneous (h : p.Assigns id ds cs) :
    p.Simultaneous s f ds cs (p.perform f id s) := by
  have hstores : ∀ ts vs, List.Forall₂ (p.Targets s f) ds ts →
      List.Forall₂ (fun c v => p.value f c s = .ok v) cs vs →
      StoresInto s ts vs (p.perform f id s) := by
    intro ts vs hts hvs
    have hlen : ts.length = vs.length := by rw [← hts.length_eq, ← hvs.length_eq, h.length]
    rw [h.perform, storing_ok (Look.mapM_ok hvs) hts hlen]
    exact storesInto_writeAll hlen fun l hl => lt_of_targets hts hl
  refine ⟨?stops, hstores, ?permutes⟩
  case stops =>
    rintro before c after e rfl hbefore he
    rw [h.perform]
    exact storing_error (Look.mapM_error hbefore he)
  case permutes =>
    rintro k d l σ hl hd rfl rfl
    have hget : ∀ j, ∃ v, s.slot? (l j).1 (l j).2 = some v ∧ p.value f (d j) s = .ok v :=
      fun j => (hd j).value
    choose v hv hvalue using hget
    have hts : List.Forall₂ (p.Targets s f) (List.ofFn d) (List.ofFn fun j => some (l j)) :=
      List.forall₂_iff_get.mpr ⟨by simp, fun j hj hj' => by simpa using (hd _).targets⟩
    have hvs : List.Forall₂ (fun c v => p.value f c s = .ok v) (List.ofFn (d ∘ σ))
        (List.ofFn fun j => v (σ j)) :=
      List.forall₂_iff_get.mpr ⟨by simp, fun j hj hj' => by simpa using hvalue _⟩
    obtain ⟨s', hr, hs'⟩ := hstores _ _ hts hvs
    have hdistinct : Store.Distinct (List.ofFn fun j => some (l j)) := by
      intro i j m hi hj
      simp only [List.getElem?_ofFn, Option.dite_none_right_eq_some, Option.some.injEq] at hi hj
      obtain ⟨hik, hi⟩ := hi
      obtain ⟨hjk, hj⟩ := hj
      exact congrArg Fin.val (hl (hi.trans hj.symm))
    refine ⟨s', hr, fun j => ?_⟩
    have hj := hs'.distinct hdistinct j (l j) (by simp)
    rw [hj, hv]
    simp

lemma Spreads.spreadOut (h : p.Spreads id ds c b level) : p.SpreadOut s f id ds b level := by
  refine ⟨?same, ?stores, ?fails⟩
  case same =>
    intro g hg hle a cs ha hcs
    rw [h.perform, ha.perform]
    have hvs : s.range? g b ds.length = some _ := if_pos hle
    refine storing_congr ((slotsAt_ok hg hvs c).trans ?_)
    exact (mapM_variables hg (ha.length ▸ hvs) hcs).symm
  case stores =>
    intro g vs ts hg hvs hts
    have hlen : ts.length = vs.length := by
      rw [← hts.length_eq, (Store.slot?_of_range? hvs).1]
    rw [h.perform, storing_ok (slotsAt_ok hg hvs c) hts hlen]
    exact storesInto_writeAll hlen fun l hl => lt_of_targets hts hl
  case fails =>
    intro hmissing
    refine ⟨?_, fun a cs ha hcs => ?_⟩
    · obtain ⟨e, he⟩ := slotsAt_error hmissing c
      exact ⟨e, h.perform f s ▸ storing_error he⟩
    · obtain ⟨e, he⟩ := mapM_variables_error ha.pos (ha.length ▸ hmissing) hcs
      exact ⟨e, ha.perform f s ▸ storing_error he⟩

lemma Returns.returned (h : p.Returns id cs) (hk : cs.length ≤ s.frameSize f) :
    p.Returned s f id cs := by
  have hperform := h.perform hk
  refine ⟨fun a ds ha hds => ?_, fun before c after e hcs hbefore he => ?_, fun vs hvs => ?_⟩
  · rw [hperform, ha.perform]
    cases hvs : (cs.mapM (p.value f) : Look (List Value)) s with
    | error e => exact (storing_error hvs).symm
    | ok vs =>
      have hlen : cs.length = vs.length := (Look.forall₂_of_mapM hvs).length_eq
      rw [storing_ok hvs (targets_leading hk ha.length hds)
        (Store.length_consecutive.trans hlen), hlen]
  · rw [hperform, hcs, Look.mapM_error hbefore he]
  · rw [hperform, Look.mapM_ok hvs, hvs.length_eq]
    dsimp only
    rw [← Store.putAll_eq]
    exact ⟨_, rfl, Store.stored_putAll (.inr (by rw [← hvs.length_eq]; omega))⟩

/-- Whatever slots sources and destinations share, and on whatever levels: an assignment reads all
sources before it stores any value, and stores from left to right. An assignment that is spread from
a call and a return are assignments too, one of them from consecutive variables and the other to the
first variables of the frame. -/
theorem assignment_simultaneous (p : Program) (f : FrameId) (s : Store) :
    (∀ id ds cs, p.Assigns id ds cs → p.Simultaneous s f ds cs (p.perform f id s)) ∧
    (∀ id ds c b level, p.Spreads id ds c b level → p.SpreadOut s f id ds b level) ∧
    (∀ id cs, p.Returns id cs → cs.length ≤ s.frameSize f → p.Returned s f id cs) :=
  ⟨fun _ _ _ h => h.simultaneous, fun _ _ _ _ _ h => h.spreadOut,
    fun _ _ h hk => h.returned hk⟩

/-- Node 2 exchanges two variables, node 5 spreads slots 2 and 3 over them, node 6 assigns these
slots one by one, and node 7 returns the two variables in the other order. -/
def exchanging : Program where
  graph := {
    globals := 4
    nodes := #[
      { kind := .ident, slot := some 0 },
      { kind := .ident, slot := some 1 },
      { kind := .assign, children := [⟨0⟩, ⟨1⟩, ⟨1⟩, ⟨0⟩] },
      { kind := .ident, slot := some 2 },
      { kind := .ident, slot := some 3 },
      { kind := .assignSpread, children := [⟨1⟩, ⟨0⟩, ⟨3⟩] },
      { kind := .assign, children := [⟨1⟩, ⟨0⟩, ⟨3⟩, ⟨4⟩] },
      { kind := .ret, children := [⟨1⟩, ⟨0⟩] }] }
  constants := .replicate 8 none
  natives := .empty
  config := {}

/-- Four slots that hold the numbers from 1 to 4. -/
def fourSlots : Store where
  frames := #[{ slots := #[.int 1, .int 2, .int 3, .int 4] }]

lemma exchanging_first (j : Fin 2) : exchanging.Variable ⟨j⟩ j 0 := by
  match j with
  | 0 | 1 => exact ⟨_, rfl, by decide, rfl, rfl⟩

theorem assignment_simultaneous_exchanging :
    (∃ s', exchanging.perform globalFrame ⟨2⟩ fourSlots = .ok .done s' ∧
      s'.slot? globalFrame 0 = some (.int 2) ∧ s'.slot? globalFrame 1 = some (.int 1)) ∧
    exchanging.perform globalFrame ⟨5⟩ fourSlots = exchanging.perform globalFrame ⟨6⟩ fourSlots ∧
    exchanging.perform globalFrame ⟨7⟩ fourSlots
      = exchanging.perform globalFrame ⟨2⟩ fourSlots := by
  have hassign : exchanging.Assigns ⟨2⟩ [⟨0⟩, ⟨1⟩] [⟨1⟩, ⟨0⟩] :=
    ⟨⟨_, rfl, rfl, rfl⟩, rfl, by decide⟩
  have hone : exchanging.Assigns ⟨6⟩ [⟨1⟩, ⟨0⟩] [⟨3⟩, ⟨4⟩] := ⟨⟨_, rfl, rfl, rfl⟩, rfl, by decide⟩
  have hspread : exchanging.Spreads ⟨5⟩ [⟨1⟩, ⟨0⟩] ⟨3⟩ 2 0 :=
    ⟨⟨_, rfl, rfl, rfl⟩, ⟨_, rfl, rfl, rfl⟩, by decide⟩
  have hret : exchanging.Returns ⟨7⟩ [⟨1⟩, ⟨0⟩] := by
    refine ⟨⟨_, rfl, rfl, rfl⟩, fun c hc n hn => .inr ?_, by decide⟩
    rcases List.mem_pair.mp hc with rfl | rfl <;> cases hn <;> exact Nat.le_refl 1
  obtain ⟨hassigns, hspreads, hreturns⟩ :=
    assignment_simultaneous exchanging globalFrame fourSlots
  refine ⟨?exchange, ?spread, ?ret⟩
  case exchange =>
    obtain ⟨s', hs', hslots⟩ := (hassigns _ _ _ hassign).permutes 2 (fun j => ⟨j⟩)
      (fun j => (globalFrame, j)) Fin.rev (fun i j h => Fin.ext (Prod.mk.inj h).2)
      (fun j => ⟨0, exchanging_first j, rfl, Nat.lt_of_lt_of_le j.isLt (show 2 ≤ 4 by decide)⟩)
      rfl rfl
    exact ⟨s', hs', hslots 0, hslots 1⟩
  case spread =>
    refine (hspreads _ _ _ _ _ hspread).same globalFrame rfl (by decide) _ _ hone fun j c hc => ?_
    match j with
    | 0 | 1 =>
      cases hc
      exact ⟨_, rfl, by decide, rfl, rfl⟩
  case ret =>
    refine (hreturns _ _ hret (by decide)).same _ _ hassign fun j d hd => ?_
    match j with
    | 0 =>
      cases hd
      exact exchanging_first 0
    | 1 =>
      cases hd
      exact exchanging_first 1

end Program

end Flowgraph
