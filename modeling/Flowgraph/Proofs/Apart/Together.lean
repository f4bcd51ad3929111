import Flowgraph.Proofs.Apart.Contained
import Flowgraph.Proofs.Apart.Ending
import Flowgraph.Proofs.Apart.Rest
import Flowgraph.Proofs.Streams.Loop

/-!
# Spawning and joining is calling in order

When jobs keep apart, it makes no difference whether a host calls one after the other, or spawns a
task for each of them and joins the tasks, whatever the order is in which they move.
-/

namespace Flowgraph

open Named Store

namespace Machine

variable {start : Machine} {begins : Nat → Chain} {n : Nat} {ms : Nat → Machine}
  {outcomes : Nat → Outcome}

lemma Session.joinable (h : Session start begins n ms outcomes) (hidle : start.Idle)
    (hbegins : ∀ i < n, (begins i).Hosted) : (ms n).Joinable :=
  h.keeps hidle.joinable (fun _ mv h => h.step mv) fun i hi _ h => h.addChain (hbegins i hi)

lemma Session.listed (h : Session start begins n ms outcomes) (hlisted : start.Listed)
    (hbegins : ∀ i < n, (begins i).Hosted) : (ms n).Listed :=
  h.keeps hlisted (fun _ mv h => h.step mv) fun i hi _ h => h.addChain (hbegins i hi)

lemma Session.accounted (h : Session start begins n ms outcomes) (hrests : start.Rests)
    (hbegins : ∀ i < n, (begins i).Hosted) :
    (ms n).Accounted start.chains.size start.launcher.started [] :=
  h.keeps (accounted_of_ended hrests.idle hrests.recorded) (fun _ mv h => h.step mv)
    fun i hi _ h => h.addChain (hbegins i hi)

/-- Chains that were there before have the numbers that they had. -/
lemma Session.chain?_of_lt (h : Session start begins n ms outcomes) (hidle : start.Idle)
    {x : ChainId}
    (hx : x.index < start.chains.size) : (ms n).chain? x = start.chain? x := by
  have hc : start.chain? x = some start.chains[x.index] := Array.getElem?_eq_getElem hx
  rw [hc]
  refine h.keeps (I := fun m => m.chain? x = _) hc (fun m mv h => ?_) fun i _ m h => ?_
  · exact chain?_of_hasEnded h (hidle x _ hc) mv
  · exact chain?_addChain_of_some h _

/-- In the end, a task that was launched in a session has left what it reported. -/
lemma Session.faultsOf (h : Session start begins n ms outcomes) (hrests : start.Rests)
    (hbegins : ∀ i < n, (begins i).Hosted) {x : ChainId} {c : Chain} {t : TaskId}
    (hc : (ms n).chain? x = some c) (ht : c.task = some t)
    (hnew : start.launcher.started ≤ t.index) : (ms n).launcher.faultsOf t = c.reported := by
  refine (h.accounted hrests hbegins).recorded x c t ⟨Nat.not_lt.mp fun hx => ?_, hc⟩ ht
  rw [h.chain?_of_lt hrests.idle hx] at hc
  exact Nat.not_lt_of_le hnew (hrests.numbered x c t hc ht)

lemma Session.started_le (h : Session start begins n ms outcomes) (hrests : start.Rests)
    (hbegins : ∀ i < n, (begins i).Hosted) : start.launcher.started ≤ (ms n).launcher.started :=
  (h.accounted hrests hbegins).enough

end Machine

/-- What a task that has ended has reported is what is recorded for its outcome. -/
lemma Chain.reported_of_ended {c : Chain} {o : Outcome} (h : c.stage = .ended o) :
    c.reported = o.recorded := by
  rw [Chain.reported, h]
  cases o <;> rfl

namespace Jobs

variable {J : Jobs} {i k n : Nat} {P Q : Plan} {ms ms' : Nat → Machine}
  {outcomes outcomes' : Nat → Outcome}

/-- What a host begins to have all jobs done by tasks: it spawns one after the other, and joins. -/
def spawning (J : Jobs) (i : Nat) : Chain :=
  if i < J.count then .atNode (J.spawn i) else .ofJoin

/-- What a host begins to do all jobs itself. -/
def calling (J : Jobs) (i : Nat) : Chain := .atNode (J.call i)

lemma hosted_spawning (J : Jobs) (i : Nat) : (J.spawning i).Hosted := by
  rw [spawning]
  split_ifs
  · exact .atNode _
  · exact .ofJoin

lemma spawning_of_lt (hi : i < J.count) : J.spawning i = .atNode (J.spawn i) := if_pos hi

lemma spawning_count (J : Jobs) : J.spawning J.count = .ofJoin := if_neg (Nat.lt_irrefl _)

lemma Independent.spawn_ne (hJ : J.Independent) (hi : i < J.count) : J.spawn i ≠ J.call i := by
  intro he
  obtain ⟨n, n', hn, hn', hkind, hkind', -⟩ := (hJ.pair i hi).nodes
  rw [he, hn'] at hn
  cases hn
  rw [hkind] at hkind'
  cases hkind'

/-- What is said of a job that one host has spawned, where `m` stands for its machine before that,
`m₁` for the one after it, and `last` for the one after joining, and that another host has called,
where `m'` stands for its machine before that. -/
structure Alike (J : Jobs) (i : Nat) (m m₁ last m' : Machine) (o o' : Outcome) : Prop where
  /-- To spawn it fails if it cannot be bound, where it is called. -/
  refused : ∀ e, o = .error e ↔
    ∃ s, m'.program.bindCall globalFrame (J.call i) "call" m'.store = .error e s
  /-- Then to call it fails in the same way, and there is no task. -/
  unstarted : ∀ e, o = .error e → o' = .error e ∧ m₁.launcher.started = m.launcher.started
  /-- Otherwise it has a task, which leaves the fault with which the call fails. -/
  started : (∀ e, o ≠ .error e) → o = .ok [] ∧
    m₁.launcher.started = m.launcher.started + 1 ∧
    last.launcher.faultsOf ⟨m.launcher.started⟩ = o'.recorded

section

variable (hJ : J.Independent) (hrests : J.start.Rests)

include hJ hrests

omit hJ hrests in
/-- A chain that does a job is there. -/
lemma Crew.exists_of_serves {m : Machine} {y : ChainId} {base : List Walk} {task : Option TaskId}
    (h : J.Crew k P m) (hy : P.roles y = .serves i base task) : ∃ c, m.chain? y = some c := by
  cases hc : m.chain? y with
  | some c => exact ⟨c, rfl⟩
  | none =>
    rw [h.spare y hc] at hy
    cases hy

/-- Where the host has spawned some jobs. -/
lemma stands_spawning (hn : n ≤ J.count) (h : Machine.Session J.start J.spawning n ms outcomes) :
    ∃ P, J.Stands n P (ms n) ∧ ∀ i < n, J.Begun i (ms i).launcher.started P.roles (J.spawn i)
      (ms (i + 1)).launcher.started (outcomes i) :=
  begun_of_session hJ hrests.loaded hrests.blind hrests.closed hrests.grants hrests.idle
    (fun _ hi => spawning_of_lt (Nat.lt_of_lt_of_le hi hn)) (fun _ _ => .inl rfl) hn h

/-- Where the host has called some jobs. -/
lemma stands_calling (hn : n ≤ J.count) (h : Machine.Session J.start J.calling n ms outcomes) :
    ∃ P, J.Stands n P (ms n) ∧ ∀ i < n, J.Begun i (ms i).launcher.started P.roles (J.call i)
      (ms (i + 1)).launcher.started (outcomes i) :=
  begun_of_session hJ hrests.loaded hrests.blind hrests.closed hrests.grants hrests.idle
    (fun _ _ => rfl) (fun _ _ => .inr rfl) hn h

/-- A host that spawns jobs always comes to the end. -/
lemma completes_spawning (hn : n ≤ J.count) (h : Machine.Session J.start J.spawning n ms outcomes) :
    (ms n).Completes (J.spawning n) := by
  obtain ⟨P, hstands, -⟩ := stands_spawning hJ hrests hn h
  rcases Nat.lt_or_eq_of_le hn with hlt | rfl
  · rw [spawning_of_lt hlt]
    exact hstands.completes_atNode hJ hrests.loaded hrests.blind hrests.closed hrests.grants hlt
      (.inl rfl)
  · rw [spawning_count]
    exact hstands.completes_ofJoin hJ hrests.loaded hrests.blind hrests.closed hrests.grants
      (h.listed hrests.listed fun i _ => J.hosted_spawning i)

/-- A host that calls jobs always comes to the end. -/
lemma completes_calling (hn : n < J.count) (h : Machine.Session J.start J.calling n ms outcomes) :
    (ms n).Completes (J.calling n) := by
  obtain ⟨P, hstands, -⟩ := stands_calling hJ hrests (Nat.le_of_lt hn) h
  exact hstands.completes_atNode hJ hrests.loaded hrests.blind hrests.closed hrests.grants hn
    (.inr rfl)

/-- When tasks have been joined, all chains have ended, and there was nothing to report. -/
lemma joined (h : Machine.Session J.start J.spawning (J.count + 1) ms outcomes) :
    ∃ P, J.Crew J.count P (ms (J.count + 1)) ∧ (ms (J.count + 1)).Idle ∧
      outcomes J.count = .ok [] ∧ ∀ i < J.count,
        J.Begun i (ms i).launcher.started P.roles (J.spawn i)
        (ms (i + 1)).launcher.started (outcomes i) := by
  have hbefore := h.mono (Nat.le_succ J.count)
  obtain ⟨P, hstands, hbegun⟩ := stands_spawning hJ hrests (Nat.le_refl _) hbefore
  have hreaches := h.reaches J.count (Nat.lt_succ_self _)
  rw [spawning_count] at hreaches
  obtain ⟨Q, hcrew, hupholds, hidle, ho⟩ := hstands.run_ofJoin hJ hrests.loaded hrests.blind
    hrests.closed hrests.grants (hbefore.joinable hrests.idle fun i _ => J.hosted_spawning i)
    hreaches (h.outcome J.count (Nat.lt_succ_self _))
  exact ⟨Q, hcrew, hidle, ho, fun i hi => (hbegun i hi).upheld hupholds⟩

omit hrests in
/-- A call that cannot be bound fails. -/
lemma result_of_refused {e : Stop} (hi : i < J.count) (h : J.Refused i e) :
    J.Result i (.error e) := by
  obtain ⟨s, hs⟩ := h
  refine ⟨_, _, .start, ?_⟩
  rw [(entry_of_error hJ hi hs).2]
  rfl

/-- In the end all jobs have been done, by tasks or by the host. -/
lemma complete_spawning (h : J.Crew J.count P (ms (J.count + 1))) (hidle : (ms (J.count + 1)).Idle)
    (hbegun : ∀ i < J.count, J.Begun i (ms i).launcher.started P.roles (J.spawn i)
      (ms (i + 1)).launcher.started (outcomes i)) : J.Complete P := by
  refine h.complete hJ hrests.loaded hrests.blind hrests.closed fun i hi => ?_
  obtain ⟨y, task, hy⟩ : ∃ y task, P.roles y = .serves i [] task := by
    rcases (hbegun i hi).of_spawn (hJ.spawn_ne hi) with ⟨-, y, -, hy, -⟩ | ⟨y, -, hy, -⟩
    · exact ⟨y, _, hy⟩
    · exact ⟨y, _, hy⟩
  obtain ⟨c, hc⟩ := h.exists_of_serves hy
  exact ⟨y, c, [], task, hc, hidle y c hc, hy⟩

lemma complete_calling (h : J.Stands J.count P (ms J.count))
    (hbegun : ∀ i < J.count, J.Begun i (ms i).launcher.started P.roles (J.call i)
      (ms (i + 1)).launcher.started (outcomes i)) : J.Complete P := by
  refine h.crew.complete hJ hrests.loaded hrests.blind hrests.closed fun i hi => ?_
  obtain ⟨y, o, hy, -⟩ := (hbegun i hi).of_call (hJ.spawn_ne hi)
  obtain ⟨c, hc⟩ := h.crew.exists_of_serves hy
  rcases h.attends y c hc with hended | ⟨j, t, hy'⟩
  · exact ⟨y, c, _, none, hc, hended, hy⟩
  · rw [hy] at hy'
    cases hy'

/-- What a job comes to that is spawned, beside what it comes to by itself. -/
lemma alike_of_result {m m₁ m' : Machine} {o o₁ o' : Outcome}
    (h : Machine.Session J.start J.spawning (J.count + 1) ms outcomes)
    (hcrew : J.Crew J.count P (ms (J.count + 1))) (hidle : (ms (J.count + 1)).Idle)
      (hi : i < J.count)
    (hbegun : J.Begun i m.launcher.started P.roles (J.spawn i) m₁.launcher.started o)
    (hstarted : J.start.launcher.started ≤ m.launcher.started)
    (hrefused : ∀ e, (∃ s, m'.program.bindCall globalFrame (J.call i) "call" m'.store =
      .error e s) ↔
      J.Refused i e)
    (hresult : J.Result i o₁) (ho' : o' = o₁.past [.atNode (J.call i)]) :
    J.Alike i m m₁ (ms (J.count + 1)) m' o o' := by
  rcases hbegun.of_spawn (hJ.spawn_ne hi) with
    ⟨e, y, he, -, hsame, rfl⟩ | ⟨y, hbound, hy, hnext, rfl⟩
  · constructor
    case refused =>
      intro e'
      rw [hrefused]
      constructor
      · rintro ⟨⟩
        exact he
      · rintro ⟨s', he'⟩
        obtain ⟨s, he⟩ := he
        rw [he] at he'
        cases he'
        rfl
    case unstarted =>
      rintro _ ⟨⟩
      rw [ho', (result_of_refused hJ hi he).unique hresult]
      exact ⟨rfl, hsame⟩
    case started => exact fun hne => absurd rfl (hne e)
  · constructor
    case refused =>
      intro e
      rw [hrefused]
      constructor
      · rintro ⟨⟩
      · rintro ⟨s, he⟩
        obtain ⟨callee, s', hb⟩ := hbound
        rw [he] at hb
        cases hb
    case unstarted => rintro e ⟨⟩
    case started =>
      intro _
      obtain ⟨c, hc⟩ := hcrew.exists_of_serves hy
      obtain ⟨o₂, hs⟩ := Machine.stage_of_hasEnded (hidle y c hc)
      obtain ⟨htask, g, o₃, -, -, hresult', rfl⟩ := hcrew.result_of_ended hJ hrests.loaded
        hrests.blind hrests.closed hc hy hs
      refine ⟨rfl, hnext, ?_⟩
      rw [h.faultsOf hrests (fun i _ => J.hosted_spawning i) hc htask hstarted,
        Chain.reported_of_ended hs,
        recorded_past, recorded_rename, ho', recorded_past, hresult'.unique hresult]

end

/-- To spawn jobs that keep apart and to join them is to call them in order, if the system starts
every thread that it is asked for. However chains move, the host comes to the end either way if all
chains have their turns. What is left is the same, up to the names of what was created, and every
job comes to the same. -/
theorem spawned_as_called {graph : Graph} {natives : Registry} {config : Config} {kept : Bool}
    {loaded : Machine} (hload : Machine.load graph natives config kept = .ok loaded)
    (hblind : natives.Blind) (hgrants : config.Grants) (hstart : loaded.Attains J.start)
    (hidle : J.start.Idle) (hJ : J.Independent) :
    (∀ n ≤ J.count, ∀ ms outcomes, Machine.Session J.start J.spawning n ms outcomes →
      (ms n).Completes (J.spawning n)) ∧
    (∀ n < J.count, ∀ ms outcomes, Machine.Session J.start J.calling n ms outcomes →
      (ms n).Completes (J.calling n)) ∧
    ∀ ms outcomes ms' outcomes',
      Machine.Session J.start J.spawning (J.count + 1) ms outcomes →
      Machine.Session J.start J.calling J.count ms' outcomes' →
      (∃ π, (ms (J.count + 1)).store.Renamed π (ms' J.count).store ∧ Keeps π J.start.store) ∧
      outcomes J.count = .ok [] ∧
      ∀ i < J.count, J.Alike i (ms i) (ms (i + 1)) (ms (J.count + 1)) (ms' i) (outcomes i)
        (outcomes' i) := by
  have hrests := Machine.rests_of_attains hblind hgrants hload hstart hidle
  refine ⟨fun n hn ms outcomes h => completes_spawning hJ hrests hn h,
    fun n hn ms outcomes h => completes_calling hJ hrests hn h, ?_⟩
  intro ms outcomes ms' outcomes' h h'
  obtain ⟨P, hcrew, hended, ho, hbegun⟩ := joined hJ hrests h
  obtain ⟨Q, hstands, hbegun'⟩ := stands_calling hJ hrests (Nat.le_refl _) h'
  refine ⟨?_, ho, fun i hi => ?_⟩
  · exact renamed_of_complete hrests.closed hcrew hstands.crew
      (complete_spawning hJ hrests hcrew hended hbegun) (complete_calling hJ hrests hstands hbegun')
  · obtain ⟨R, hstands', -⟩ :=
      stands_calling hJ hrests (Nat.le_of_lt hi) (h'.mono (Nat.le_of_lt hi))
    obtain ⟨y, o₁, -, hresult, ho'⟩ := (hbegun' i hi).of_call (hJ.spawn_ne hi)
    have hstarted := (h.mono (Nat.le_succ_of_le (Nat.le_of_lt hi))).started_le hrests
      fun i _ => J.hosted_spawning i
    exact alike_of_result hJ hrests h hcrew hended hi (hbegun i hi) hstarted
      (fun e => hstands'.refused_iff hJ hrests.loaded hrests.closed hi e) hresult ho'

end Jobs

/-! ### An example -/

/-- Two functions: one keeps its argument in a global variable, the other one divides by zero. There
is a node that spawns each of them, and one that calls it. -/
def errands : Graph where
  globals := 1
  nodes := #[
    { kind := .funcDecl,
      payload := some (.definition
        { name := "keep", frameSize := 1, params := [0], entry := some ⟨8⟩ }) },
    { kind := .funcDecl,
      payload := some (.definition { name := "divide", frameSize := 1, entry := some ⟨9⟩ }) },
    { kind := .ident, payload := some (.func ⟨0⟩) },
    { kind := .ident, payload := some (.func ⟨1⟩) },
    { kind := .basicLit, payload := some (.literal (.int 7)) },
    { kind := .basicLit, payload := some (.literal (.int 0)) },
    { kind := .ident, slot := some 0 },
    { kind := .ident, slot := some 0, level := 1 },
    { kind := .assign, children := [⟨7⟩, ⟨6⟩] },
    { kind := .binary .quo, children := [⟨4⟩, ⟨5⟩], slot := some 0 },
    { kind := .spawn, children := [⟨2⟩, ⟨4⟩] },
    { kind := .spawn, children := [⟨3⟩] },
    { kind := .call, children := [⟨2⟩, ⟨4⟩] },
    { kind := .call, children := [⟨3⟩] }]

namespace Jobs

/-- The machine of the example. -/
def office : Machine :=
  .ofProgram
    { graph := errands
      constants := #[some (.func ⟨0⟩ none), some (.func ⟨1⟩ none), some (.func ⟨0⟩ none),
        some (.func ⟨1⟩ none), some (.int 7), some (.int 0), none, none, none, none, none, none,
        none, none]
      natives := .empty
      config := {} } true

lemma load_errands : Machine.load errands .empty {} true = .ok office := rfl

/-- To keep a number, which writes a global variable, and to divide by zero. -/
def twoErrands : Jobs where
  start := office
  count := 2
  spawn i := ⟨10 + i⟩
  call i := ⟨12 + i⟩
  footprint i := ⟨∅, {l | i = 0 ∧ l = .slot globalFrame 0}⟩
  operands _ := ∅

lemma blind_empty : Registry.empty.Blind := fun _ he => absurd he List.not_mem_nil

lemma grants_default : Config.Grants {} := fun _ => rfl

lemma idle_office : office.Idle := fun x c hc => by cases hc

lemma rests_errands : twoErrands.start.Rests :=
  Machine.rests_of_attains blind_empty grants_default load_errands .start idle_office

/-- The walk through the first function. -/
def keeping (node : Option NodeId) (stage : Stage) : Chain :=
  { walks := [⟨⟨⟨1⟩, ⟨0⟩, some ⟨8⟩, 0⟩, node, 1⟩], stage }

/-- The first function writes to the global variable, in every store that looks alike. -/
lemma next_keeping {σ : Renaming} {t : Store} (hσ : Keeps σ (twoErrands.entry 0).2)
    (hview : View σ ((twoErrands.footprint 0).touched office.store) (twoErrands.entry 0).2 t) :
    (keeping (some ⟨8⟩) .walk).next office.program t =
      some (keeping (some ⟨8⟩) .follow, t.setSlot globalFrame 0 (.int 7)) := by
  have hzero : rename σ globalFrame = globalFrame := congrArg FrameId.mk (hσ .frames 0 (by decide))
  have hone : rename σ (⟨1⟩ : FrameId) = ⟨1⟩ := congrArg FrameId.mk (hσ .frames 1 (by decide))
  -- how large the frames are, what is in the slot of the function, and where its frame links to
  have hsize : t.frameSize globalFrame = 1 := by
    have hframe := (hview.frame (f := globalFrame) (by decide)).1
    rwa [hzero] at hframe
  have hframe := hview.frame (f := ⟨1⟩) (by decide)
  rw [hone] at hframe
  have houter : t.ancestor? ⟨1⟩ 1 = some globalFrame := by
    have hparent : t.parent? ⟨1⟩ = some globalFrame := hframe.2.trans (congrArg some hzero)
    rw [Store.ancestor?, hparent]
    rfl
  have hslot : t.slot? ⟨1⟩ 0 = some (.int 7) := by
    have hnew : ¬Within office.store.size (Location.slot ⟨1⟩ 0) := fun hw =>
      absurd (hw .frames 1 ⟨rfl, rfl⟩) (by decide)
    have hcontent := hview.content (.slot ⟨1⟩ 0) (fun hw => absurd hw hnew)
      (within_slot (by decide))
    have hname : rename σ (Location.slot ⟨1⟩ 0) = .slot ⟨1⟩ 0 := congrArg (Location.slot · 0) hone
    rw [hname] at hcontent
    exact Content.value.inj hcontent
  have hassign : office.program.assign ⟨1⟩ ⟨8⟩ t = .ok () (t.setSlot globalFrame 0 (.int 7)) :=
    Program.Denotes.assign rfl rfl ⟨_, _, rfl, rfl, by decide, rfl, houter, by rw [hsize]; decide⟩
      (Program.Denotes.operand ⟨_, _, rfl, rfl, by decide, rfl, rfl, by rw [hframe.1]; decide⟩
        hslot)
  have hperform : office.program.perform ⟨1⟩ ⟨8⟩ t =
      .ok .done (t.setSlot globalFrame 0 (.int 7)) := by
    change (office.program.assign ⟨1⟩ ⟨8⟩ >>= fun _ => pure .done : Op Pending) t = _
    rw [Op.bind_apply, hassign]
    rfl
  exact (Chain.Steps.operation (w := ⟨⟨⟨1⟩, ⟨0⟩, some ⟨8⟩, 0⟩, some ⟨8⟩, 1⟩) rfl rfl rfl
    hperform).next

/-- The first function is contained. -/
lemma contained_keep : (twoErrands.entry 0).1.Contained office.program office.store
    (twoErrands.footprint 0) (twoErrands.entry 0).2 := by
  have hp := rests_errands.loaded
  have hn := rests_errands.blind
  obtain ⟨-, hs, hd, -⟩ := Program.sound_entry hp rests_errands.closed (twoErrands.call 0)
  apply Chain.Contained.of_quiet hp hn hs hd rfl (keeping (some ⟨8⟩) .walk) fun _ => rfl
  intro hd
  have hmem : Location.slot globalFrame 0 ∈ (twoErrands.footprint 0).written office.store :=
    fun _ => ⟨rfl, rfl⟩
  apply Chain.Contained.of_setSlot hp hn hs hd rfl (keeping (some ⟨8⟩) .follow)
    globalFrame 0 (.int 7)
    (by decide) (by decide) hmem (fun _ _ hk => hk.elim) fun σ t hσ hview => next_keeping hσ hview
  intro hs hd
  apply Chain.Contained.of_quiet hp hn hs hd rfl (keeping none .walk) fun _ => rfl
  intro hd
  have hwalk : ∀ t, (keeping none .walk).next office.program t =
      some ({ stage := .deliver [] }, t) :=
    fun t => (Chain.Steps.results rfl rfl rfl (Program.results_of_zero rfl t)).next
  apply Chain.Contained.of_quiet hp hn hs hd rfl _ hwalk
  intro hd
  apply Chain.Contained.of_quiet hp hn hs hd rfl (.exit { stage := .walk } (.ok []))
    fun _ => rfl
  intro _
  exact Chain.Contained.of_exit rfl

/-- The second function stops at its first node. -/
lemma contained_divide : (twoErrands.entry 1).1.Contained office.program office.store
    (twoErrands.footprint 1) (twoErrands.entry 1).2 := by
  have hp := rests_errands.loaded
  have hn := rests_errands.blind
  obtain ⟨-, hs, hd, -⟩ := Program.sound_entry hp rests_errands.closed (twoErrands.call 1)
  let a : Activation := ⟨⟨1⟩, ⟨1⟩, some ⟨9⟩, 0⟩
  apply Chain.Contained.of_quiet hp hn hs hd rfl { walks := [⟨a, some ⟨9⟩, 1⟩], stage := .walk }
    fun _ => rfl
  intro hd
  apply Chain.Contained.of_quiet hp hn hs hd rfl
    (.exit { stage := .walk } (.error (.fault .divisionByZero))) fun _ => rfl
  intro _
  exact Chain.Contained.of_exit rfl

lemma independent_errands : twoErrands.Independent := by
  have hcases : ∀ i < twoErrands.count, i = 0 ∨ i = 1 := fun i hi => by
    have hi : i < 2 := hi
    omega
  constructor
  case pair =>
    intro i hi
    rcases hcases i hi with rfl | rfl
    all_goals exact ⟨⟨_, _, rfl, rfl, rfl, rfl, rfl, rfl, rfl⟩, ⟨_, rfl, rfl, rfl⟩,
      ⟨_, rfl, rfl, rfl⟩⟩
  case callable =>
    intro i hi
    rcases hcases i hi with rfl | rfl
    · exact ⟨⟨2⟩, .func ⟨0⟩ none, rfl, trivial, fun _ _ => rfl⟩
    · exact ⟨⟨3⟩, .func ⟨1⟩ none, rfl, trivial, fun _ _ => rfl⟩
  case bound =>
    intro i hi
    rcases hcases i hi with rfl | rfl
    all_goals exact fun _ _ => rfl
  case contained =>
    intro i hi
    rcases hcases i hi with rfl | rfl
    · exact contained_keep
    · exact contained_divide
  case apart =>
    rintro i hi j hj hij l ⟨rfl, rfl⟩
    exact ⟨fun hl => hl, fun ⟨hj, _⟩ => hij hj.symm⟩
  case later => exact fun _ _ _ _ _ _ hl => hl

/-- Chains that move, one after the other. -/
def turns (l : List Nat) : List Move := l.map fun x => .run ⟨x⟩

/-- Moves of a host that spawns both and joins, and of the tasks between them. -/
def spawningMoves : Nat → List Move
  | 0 => turns [0, 0, 0, 0, 1, 0, 0, 1, 0, 0, 0, 0]
  | 1 => turns [2, 1, 2, 2, 2, 3, 2, 2, 3, 2, 2, 2, 2]
  | _ => turns [4, 3, 1, 4, 1, 3, 1, 1, 3, 3, 1, 1, 4, 4, 4, 4, 4, 4]

/-- Moves of a host that calls both. -/
def callingMoves : Nat → List Move
  | 0 => turns (List.replicate 12 0)
  | _ => turns (List.replicate 9 1)

/-- The division fails. -/
def callingOutcomes : Nat → Outcome
  | 0 => .ok []
  | _ => .error (.fault .divisionByZero)

set_option maxRecDepth 4000 in
/-- Both hosts come to their ends, with the same value in the global variable, and what is left of
the task that divides by zero is the fault of the call. -/
theorem spawned_as_called_errands :
    Machine.load errands .empty {} true = .ok twoErrands.start ∧ ∃ ms outcomes ms' outcomes',
      Machine.Session twoErrands.start twoErrands.spawning 3 ms outcomes ∧
      Machine.Session twoErrands.start twoErrands.calling 2 ms' outcomes' ∧
      (∃ π, (ms 3).store.Renamed π (ms' 2).store ∧ Keeps π twoErrands.start.store) ∧
      (ms 3).store.slot? globalFrame 0 = some (.int 7) ∧
      outcomes' 1 = .error (.fault .divisionByZero) ∧
      ∀ i < 2, twoErrands.Alike i (ms i) (ms (i + 1)) (ms 3) (ms' i) (outcomes i)
        (outcomes' i) := by
  have hspawn : Machine.Session twoErrands.start twoErrands.spawning 3
      (Machine.conducted twoErrands.start twoErrands.spawning spawningMoves) fun _ => .ok [] :=
    Machine.session_conducted fun i hi => by
      obtain rfl | rfl | rfl : i = 0 ∨ i = 1 ∨ i = 2 := by omega
      all_goals rfl
  have hcall : Machine.Session twoErrands.start twoErrands.calling 2
      (Machine.conducted twoErrands.start twoErrands.calling callingMoves) callingOutcomes :=
    Machine.session_conducted fun i hi => by
      obtain rfl | rfl : i = 0 ∨ i = 1 := by omega
      all_goals rfl
  obtain ⟨hrenamed, -, halike⟩ := (spawned_as_called load_errands blind_empty grants_default .start
    idle_office independent_errands).2.2 _ _ _ _ hspawn hcall
  exact ⟨load_errands, _, _, _, _, hspawn, hcall, hrenamed, rfl, rfl, halike⟩

end Jobs

end Flowgraph
