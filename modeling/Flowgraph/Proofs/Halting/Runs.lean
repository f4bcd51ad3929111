import Mathlib.Tactic.Common
import Flowgraph.Proofs.Depth.Exact
import Flowgraph.Proofs.Halting.Measure

/-!
# Code that goes forward comes to its end

Over a graph whose code only goes forward, and with a limit on nesting, whatever a host begins comes
to its end: on its own, and among other chains, as long as it gets its turn again and again.
-/

namespace Flowgraph

/-- An outcome that is no sign of an endless operation. -/
def Outcome.Orderly (o : Outcome) : Prop := ∀ e, o = .error e → e.Abrupt

/-- What a host begins in order to have code executed. -/
inductive Chain.Executes : Chain → Prop
  | atNode (entry : NodeId) : Executes (.atNode entry)
  | ofCall (callee : Value) (receiver : Option Value) (args : List Value) :
    Executes (.ofCall callee receiver args)

namespace Chain

variable {S : Span} {c : Chain}

lemma Executes.hosted (h : c.Executes) : c.Hosted := by
  cases h with
  | atNode entry => exact .atNode entry
  | ofCall callee receiver args => exact .ofCall callee receiver args

lemma Executes.steady (h : c.Executes) : c.Steady S := by
  cases h with
  | atNode entry =>
    refine ⟨fun w hw => ?_, rfl⟩
    rcases List.mem_singleton.mp hw with rfl
    exact Nat.zero_le _
  | ofCall callee receiver args => exact ⟨fun w hw => absurd hw List.not_mem_nil, rfl⟩

lemma Executes.stop? (h : c.Executes) : c.stop? = none := by
  cases h <;> rfl

/-- A steady chain needs nobody but itself. -/
lemma Steady.isFree (h : c.Steady S) (hended : c.hasEnded = false) : c.stage.isFree = true := by
  have hsteady := h.stage
  cases hs : c.stage with
  | ended outcome =>
    simp [hasEnded, outcome?, hs] at hended
  | send | receive | received | spawn | launch | enlist | join | lost =>
    rw [hs] at hsteady
    cases hsteady
  | _ => rfl

end Chain

namespace Machine

variable {m : Machine} {x : ChainId} {c d : Chain} {S : Span} {mv : Move}

/-! ### Moves -/

section Moves

variable (hforward : m.program.graph.Forward) (hS : S.Measures m.program)
  (hnative : ¬c.StartsNative m.program)

include hforward hnative

/-- A chain is not stopped by something endless. -/
lemma abrupt_of_raises {e : Stop} {s : Store} (hc : m.chain? x = some c) (h : m.Raises x mv e s) :
    e.Abrupt := by
  cases h with
  | alone hc' h =>
    rw [hc] at hc'
    cases hc'
    refine hforward.charted.allows_of_raises ?_ ?_ ?_ h
    · exact fun _ _ _ _ _ _ _ => trivial
    · exact ⟨fun _ _ _ _ => trivial, fun _ _ _ _ _ _ _ => trivial⟩
    · intro depth name args symbol hs hname
      exact absurd ⟨depth, name, args, symbol, hs, hname⟩ hnative
  | refused => exact .proper (.fault _)
  | dismissed => exact .proper (.fault _)

include hS

omit hforward in
lemma nears_advanced (h : c.Steady S) {step : Op Chain} {s : Store}
    (ha : c.advance m.program = some step) (hr : step m.store = .ok d s) : c.Nears S d := by
  exact h.nears hS hnative (Chain.steps_of_advance ha hr)

omit hS in
lemma nears_stopped (h : c.Steady S) (hc : m.chain? x = some c) {step : Op Chain} {e : Stop}
    {s : Store} (ha : c.advance m.program = some step) (hr : step m.store = .error e s) :
    c.Nears S (stopChain c e) := by
  have habrupt := abrupt_of_raises hforward hnative hc (.alone hc (Chain.raises_of_advance ha hr))
  cases e with
  | endless => exact absurd rfl habrupt.ne_endless
  | fault | panic => exact Chain.nears_exit (h.lt_left ha) _

/-- Whatever happens, a steady chain stays as it is, or has less left to do. -/
theorem nears_step (h : c.Steady S) (hc : m.chain? x = some c)
    (hd : (m.step mv).chain? x = some d) : d = c ∨ c.Nears S d := by
  cases next_of_step hc hd with
  | same => exact .inl rfl
  | restaged hr => exact .inr (h.nears_restaged hr)
  | advanced _ ha hr => exact .inr (nears_advanced hS hnative h ha hr)
  | stopped _ ha hr => exact .inr (nears_stopped hforward hnative h hc ha hr)

/-- A chain whose time has come makes use of its move. -/
theorem nears_run (h : c.Steady S) (hc : m.chain? x = some c) (hended : c.hasEnded = false)
    (hready : ∀ wake, c.stage = .sleep wake → wake ≤ m.clock) :
    ∃ d, (m.step (.run x)).chain? x = some d ∧ c.Nears S d := by
  have hset : ∀ {m' : Machine} {d : Chain}, m.step (.run x) = m'.setChain x d →
      m'.chains = m.chains → c.Nears S d →
      ∃ d, (m.step (.run x)).chain? x = some d ∧ c.Nears S d := by
    intro m' d hm hchains hnears
    refine ⟨d, ?_, hnears⟩
    rw [hm]
    apply chain?_setChain_self (c := c)
    rw [chain?, hchains]
    exact hc
  cases ha : c.advance m.program with
  | some step =>
    have hrun : m.step (.run x) = m.stepChain x c step := run_of_advance hc ha
    rw [stepChain_eq] at hrun
    cases hr : step m.store with
    | ok d s =>
      rw [hr] at hrun
      exact hset hrun rfl (nears_advanced hS hnative h ha hr)
    | error e s =>
      rw [hr] at hrun
      exact hset hrun rfl (nears_stopped hforward hnative h hc ha hr)
  | none =>
    have hsteady := h.stage
    cases hs : c.stage with
    | pause milliseconds =>
      have hstep : m.step (.run x) =
          m.setChain x { c with stage := .sleep (m.clock + 1000 * milliseconds) } := by
        simp only [Machine.step, run, hc, hs]
      have hr : m.Restaged c
        { c with stage := .sleep (m.clock + 1000 * milliseconds) } := .asleep hs
      exact hset hstep rfl (h.nears_restaged hr)
    | sleep wake =>
      have hstep : m.step (.run x) = m.setChain x c.proceed := by
        simp only [Machine.step, run, hc, hs, Machine.wake, if_pos (hready wake hs)]
      have hr : m.Restaged c c.proceed := .awake hs
      exact hset hstep rfl (h.nears_restaged hr)
    | exit outcome =>
      have hr : m.Restaged c { c with stage := .leave outcome } := .leaving hs
      exact hset (step_exit hc hs) (chains_record m c outcome).1 (h.nears_restaged hr)
    | leave outcome =>
      have hr : m.Restaged c { c with stage := .ended outcome } := .ended hs
      exact hset (step_leave hc hs) (chains_retire m c).1 (h.nears_restaged hr)
    | ended outcome => simp [Chain.hasEnded, Chain.outcome?, hs] at hended
    | walk | follow | call | start | deliver => simp [Chain.advance, hs] at ha
    | _ => rw [hs] at hsteady; cases hsteady

end Moves

/-! ### Runs -/

/-- A run: in each step something moves, or nothing happens. -/
def IsRun (run : Nat → Machine) : Prop :=
  ∀ k, run (k + 1) = run k ∨ ∃ mv, run (k + 1) = (run k).step mv

/-- Again and again a chain has a move when it does not sleep. -/
def Fair (run : Nat → Machine) (x : ChainId) : Prop :=
  ∀ k, ∃ j, run (k + j + 1) = (run (k + j)).step (.run x) ∧
    ∀ c wake, (run (k + j)).chain? x = some c → c.stage = .sleep wake → wake ≤ (run (k + j)).clock

/-- In no state of a run is a chain about to start a native. -/
def NativeFree (run : Nat → Machine) (x : ChainId) : Prop :=
  ∀ k c, (run k).chain? x = some c → ¬c.StartsNative (run 0).program

lemma IsRun.program {run : Nat → Machine} (h : IsRun run) (k : Nat) :
    (run k).program = (run 0).program := by
  induction k with
  | zero => rfl
  | succ k ih =>
    rcases h k with heq | ⟨mv, heq⟩
    · rw [heq, ih]
    · rw [heq, program_step, ih]

/-- What is kept of a chain in a run: it is steady, and if it was stopped, then not by something
endless. -/
structure Keeping (S : Span) (m : Machine) (x : ChainId) (c : Chain) : Prop where
  chain : m.chain? x = some c
  steady : c.Steady S
  abrupt : ∀ e, c.stop? = some e → e.Abrupt

section Runs

variable {run : Nat → Machine} (hrun : IsRun run) (hforward : (run 0).program.graph.Forward)
  (hS : S.Measures (run 0).program) (hnative : NativeFree run x)

include hrun hforward hS hnative

lemma Keeping.next {k : Nat} (h : Keeping S (run k) x c) :
    ∃ d, Keeping S (run (k + 1)) x d ∧ (d = c ∨ S.left d < S.left c) := by
  have hprogram := hrun.program k
  have hfree := hnative k c h.chain
  rw [← hprogram] at hforward hS hfree
  rcases hrun k with heq | ⟨mv, heq⟩
  · exact ⟨c, heq ▸ h, .inl rfl⟩
  · obtain ⟨d, hd⟩ := exists_chain?_step ⟨c, h.chain⟩ mv
    have hnears := nears_step hforward hS hfree h.steady h.chain hd
    have hsteady : d.Steady S := hnears.elim (fun heq => heq ▸ h.steady) fun hn => hn.1
    refine ⟨d, ⟨heq ▸ hd, hsteady, fun e he => ?_⟩, hnears.imp_right fun hn => hn.2⟩
    rcases raises_of_stop? h.chain hd he with hold | ⟨s, hraises⟩
    · exact h.abrupt e hold
    · exact abrupt_of_raises hforward hfree h.chain hraises

lemma Keeping.later {k : Nat} (h : Keeping S (run k) x c) (j : Nat) :
    ∃ d, Keeping S (run (k + j)) x d ∧ (d = c ∨ S.left d < S.left c) := by
  induction j with
  | zero => exact ⟨c, h, .inl rfl⟩
  | succ j ih =>
    obtain ⟨d, hd, hless⟩ := ih
    obtain ⟨e, he, hless'⟩ := hd.next hrun hforward hS hnative
    refine ⟨e, he, ?_⟩
    rcases hless' with rfl | hless'
    · exact hless
    · right
      rcases hless with rfl | hless
      · exact hless'
      · exact Nat.lt_trans hless' hless

/-- A chain that moves again and again comes to its end. -/
theorem Keeping.ends {k : Nat} (h : Keeping S (run k) x c)
    (hmoves : ∀ k c, Keeping S (run k) x c → c.hasEnded = false →
      ∃ j, (run (k + j)).chain? x ≠ some c) :
    ∃ k o, ((run k).chain? x).bind Chain.outcome? = some o ∧ o.Orderly := by
  -- by induction on how much the chain has left to do
  generalize hn : S.left c = n
  induction n using Nat.strong_induction_on generalizing k c with
  | _ n ih =>
    cases hended : c.hasEnded with
    | false =>
      obtain ⟨j, hj⟩ := hmoves k c h hended
      obtain ⟨d, hd, hless⟩ := h.later hrun hforward hS hnative j
      rcases hless with rfl | hless
      · exact absurd hd.chain hj
      · exact ih (S.left d) (hn ▸ hless) hd rfl
    | true =>
      obtain ⟨o, hs⟩ := stage_of_hasEnded hended
      refine ⟨k, o, ?_, fun e he => h.abrupt e ?_⟩
      · rw [h.chain, Option.bind_some, Chain.outcome?, hs]
      · rw [Chain.stop?, hs, he]

/-- A chain that gets its turn again and again comes to its end. -/
theorem Keeping.ends_of_fair (hfair : Fair run x) {k : Nat} (h : Keeping S (run k) x c) :
    ∃ k o, ((run k).chain? x).bind Chain.outcome? = some o ∧ o.Orderly := by
  refine h.ends hrun hforward hS hnative fun k c hc hended => ?_
  obtain ⟨j, hstep, hready⟩ := hfair k
  by_cases hsame : (run (k + j)).chain? x = some c
  · refine ⟨j + 1, ?_⟩
    have hprogram := hrun.program (k + j)
    have hfree := hnative (k + j) c hsame
    rw [← hprogram] at hforward hS hfree
    obtain ⟨d, hd, hnears⟩ :=
      nears_run hforward hS hfree hc.steady hsame hended fun wake => hready c wake hsame
    rw [← Nat.add_assoc, hstep, hd]
    rintro ⟨⟩
    exact Nat.lt_irrefl _ hnears.2
  · exact ⟨j, hsame⟩

end Runs

/-! ### Runs of a host -/

lemma isRun_runAt (m : Machine) (c : Chain) : IsRun fun k => (m.runAt c k).2 := by
  intro k
  dsimp only
  rw [runAt_succ, tick]
  split
  · exact .inr ⟨_, rfl⟩
  · exact .inl rfl

/-- On its own, the chain of a host has its turn again and again. -/
lemma exists_runAt_ne (hforward : m.program.graph.Forward) (hS : S.Measures m.program)
    (hidle : m.Idle) (hc : c.Hosted) {k : Nat} (h : Keeping S (m.runAt c k).2 m.nextChain d)
    (hended : d.hasEnded = false) (hnative : ¬d.StartsNative m.program) :
    ∃ j, (m.runAt c (k + j)).2.chain? m.nextChain ≠ some d := by
  have hspawnless : m.program.Spawnless := by
    intro id n hn hspawn
    refine hforward.kinds n (Program.mem_nodes hn) ?_
    rw [hspawn]
    decide
  have halone := hidle.alone_runAt hspawnless hc k
  have hprogram := program_runAt m c k
  rw [← hprogram] at hforward hS hnative
  obtain ⟨n, next, time, -, hwake, hn⟩ :=
    halone.lone.tick_progress h.chain (h.steady.isFree hended) (m.runAt c k).1
  obtain ⟨d', hd', hnears⟩ := nears_run (m := { (m.runAt c k).2 with clock := time }) hforward hS
    hnative h.steady h.chain hended hwake
  refine ⟨n + 1, ?_⟩
  have hlater : m.runAt c (k + (n + 1)) = (tick m.nextChain)^[n + 1] (m.runAt c k) := by
    rw [Nat.add_comm, runAt, Function.iterate_add_apply]
    rfl
  rw [hlater, hn, hd']
  rintro ⟨⟩
  exact Nat.lt_irrefl _ hnears.2

/-- What a host begins comes to its end. -/
structure Halts (m : Machine) (c : Chain) : Prop where
  /-- It does so on its own. -/
  alone : m.Idle → NativeFree (fun k => (m.runChain k c).2) m.nextChain →
    ∃ fuel o, (m.runChain fuel c).1 = some o ∧ o.Orderly
  /-- It also does so among other chains, whatever they do. -/
  among : ∀ run, run 0 = (m.addChain c).2 → IsRun run → Fair run m.nextChain →
    NativeFree run m.nextChain →
    ∃ k o, ((run k).chain? m.nextChain).bind Chain.outcome? = some o ∧ o.Orderly

/-- Code that only goes forward comes to its end when there is a limit on nesting, however functions
call each other. -/
theorem halts_of_forward {limit : Nat} (hforward : m.program.graph.Forward)
    (hlimit : m.program.config.maxCallDepth = some limit) (hc : c.Executes) : m.Halts c := by
  obtain ⟨S, -, hS⟩ := hforward.exists_span hlimit
  have hstart : Keeping S (m.addChain c).2 m.nextChain c :=
    ⟨m.chain?_addChain c, hc.steady, fun e he => by rw [hc.stop?] at he; cases he⟩
  constructor
  · intro hidle hnative
    simp only [runChain_eq] at hnative ⊢
    have hzero : Keeping S (m.runAt c 0).2 m.nextChain c := hstart
    obtain ⟨k, o, ho, horderly⟩ := Keeping.ends (isRun_runAt m c) hforward hS hnative hzero
      fun k d hd hended => exists_runAt_ne hforward hS hidle hc.hosted hd hended
        (hnative k d hd.chain)
    exact ⟨k, o, ho, horderly⟩
  · intro run hzero hrun hfair hnative
    have hprogram : (run 0).program = m.program := by rw [hzero]; rfl
    rw [← hprogram] at hforward hS
    rw [← hzero] at hstart
    exact hstart.ends_of_fair hrun hforward hS hnative hfair

/-- A function that calls itself, unless its argument is true. -/
def descent : Graph where
  nodes := #[
    { kind := .funcDecl,
      payload := some (.definition
        { name := "descend", frameSize := 1, params := [0], results := 1, entry := some ⟨3⟩ }) },
    { kind := .ident, payload := some (.func ⟨0⟩) },
    { kind := .ident, slot := some 0 },
    { kind := .ident, slot := some 0, next := some ⟨5⟩, otherwise := some ⟨4⟩ },
    { kind := .call, children := [⟨1⟩, ⟨2⟩], slot := some 0, next := some ⟨5⟩ },
    { kind := .ret, children := [⟨2⟩] }]

lemma forward_descent : descent.Forward :=
  Graph.forward_of_order (by decide) (by decide) (by decide)

theorem halts_descent : ∃ start,
    Machine.load descent .empty { maxCallDepth := some 1 } true = .ok start ∧
    (∀ b, start.Halts (.ofCall (.func ⟨0⟩ none) none [.bool b])) ∧
    (start.call 24 (.func ⟨0⟩ none) none [.bool true]).1 = some (.ok [.bool true]) ∧
    (start.call 24 (.func ⟨0⟩ none) none [.bool false]).1 =
      some (.error (.fault (.stackOverflow 1))) := by
  refine ⟨_, rfl, fun b => ?_, rfl, rfl⟩
  exact halts_of_forward forward_descent rfl (.ofCall _ _ _)

/-- A channel is made for more values than any memory can hold. -/
def oversized : Graph where
  globals := 1
  types := #[.int, .chan ⟨0⟩]
  nodes := #[
    { kind := .ident },
    { kind := .typeExpr, type := some ⟨1⟩ },
    { kind := .basicLit, payload := some (.literal (.int 4611686018427387904)) },
    { kind := .make, children := [⟨0⟩, ⟨1⟩, ⟨2⟩], slot := some 0 }]

/-- Neither a result nor a fault comes of it. -/
theorem no_answer_oversized : ∃ start,
    Machine.load oversized .empty { maxCallDepth := some 3 } true = .ok start ∧
    oversized.Forward ∧ start.Idle ∧ (start.exec 20 ⟨3⟩).1 = some (.error .capacityTooLarge) ∧
    ¬∃ fuel o, (start.exec fuel ⟨3⟩).1 = some o ∧
      ((∃ vs, o = .ok vs) ∨ ∃ f, o = .error (.fault f)) := by
  have hnone : ∀ start : Machine, (start.exec 20 ⟨3⟩).1 = some (.error .capacityTooLarge) →
      ¬∃ fuel o, (start.exec fuel ⟨3⟩).1 = some o ∧
        ((∃ vs, o = .ok vs) ∨ ∃ f, o = .error (.fault f)) := by
    rintro start hanswer ⟨fuel, o, ho, hplain⟩
    rw [answer_unique ho hanswer] at hplain
    rcases hplain with ⟨vs, hvs⟩ | ⟨f, hf⟩
    · cases hvs
    · cases hf
  refine ⟨_, rfl, Graph.forward_of_order (by decide) (by decide) (by decide), ?_, rfl, hnone _ rfl⟩
  intro x c hc
  simp [chain?, ofProgram] at hc

end Machine

end Flowgraph
