import Mathlib.Data.Nat.Find
import Mathlib.Tactic.Common
import Flowgraph.Proofs.Depth.Limited
import Flowgraph.Proofs.Depth.Nesting

/-!
# The limit on nesting is exact

A host's run with a limit on nesting is the run without, as long as that one keeps to the limit.
When it goes beyond, then the run with the limit ends at the moment when the first activation beyond
the limit would have executed its first node.
-/

namespace Flowgraph

namespace Machine

variable {m : Machine} {x : ChainId} {c d : Chain} {limit k : Nat}

/-! ### A chain on its own -/

/-- A chain of a host is the only one that has not ended. -/
structure Alone (m : Machine) (x : ChainId) : Prop where
  lone : m.Lone x
  chain : ∃ c, m.chain? x = some c ∧ c.Direct

lemma Alone.step (h : m.Alone x) (hp : m.program.Spawnless) (mv : Move) : (m.step mv).Alone x := by
  obtain ⟨c, hc, hdirect⟩ := h.chain
  obtain ⟨d, hd⟩ := exists_chain?_step ⟨c, hc⟩ mv
  refine ⟨h.lone.step (fun c' hc' t callee hs => ?_) mv, d, hd, direct_step hp hc hdirect hd⟩
  rw [hc] at hc'
  cases hc'
  have hspawn := hdirect.spawning
  rw [hs] at hspawn
  cases hspawn

/-- All chains of a machine have ended. -/
def Idle (m : Machine) : Prop := ∀ x c, m.chain? x = some c → c.hasEnded = true

lemma Idle.alone (h : m.Idle) (hc : c.Hosted) : (m.addChain c).2.Alone m.nextChain where
  lone y d hy hd := by
    rw [chain?_addChain_eq] at hd
    split_ifs at hd with hnew
    · exact absurd (congrArg ChainId.mk hnew) hy
    · exact h y d hd
  chain := ⟨c, m.chain?_addChain c, Chain.direct_hosted hc⟩

/-- In a run of a host where no node spawns, the host's chain stays alone. -/
lemma Idle.alone_runAt (h : m.Idle) (hp : m.program.Spawnless) (hc : c.Hosted) (k : Nat) :
    (m.runAt c k).2.Alone m.nextChain := by
  induction k with
  | zero => exact h.alone hc
  | succ k ih =>
    rw [runAt_succ, tick]
    split
    · exact ih.step (by rwa [program_runAt]) _
    · exact ih

/-! ### Starting functions -/

lemma step_enter {depth : Nat} {a : Activation} (hnone : m.program.config.maxCallDepth = none)
    (hc : m.chain? x = some c) (hs : c.stage = .start depth (.declared a)) :
    m.step (.run x) = m.setChain x (c.enter a depth) :=
  step_of_steps hc (.enter hs fun limit he => by rw [hnone] at he; cases he)

lemma step_refuse {depth : Nat} {a : Activation}
    (hlimit : m.program.config.maxCallDepth = some limit)
    (hlt : limit < depth) (hc : m.chain? x = some c) (hs : c.stage = .start depth (.declared a)) :
    m.step (.run x) = m.setChain x (c.exit (.error (.fault (.stackOverflow limit)))) := by
  have hstart : c.advance m.program = some (throw (.fault (.stackOverflow limit))) := by
    simp only [Chain.advance, hs, Chain.start, hlimit, if_pos hlt]
  rw [step, run_of_advance hc hstart, stepChain_eq]
  rfl

/-! ### Runs with and without a limit -/

/-- After a number of moves of a host's run, its chain is in an activation that is nested deeper
than a limit. -/
def DeepAt (m : Machine) (c : Chain) (limit k : Nat) : Prop :=
  ∃ d, (m.runChain k c).2.chain? m.nextChain = some d ∧ ¬d.Shallow limit

/-- What a host's run needs in order to be compared to one with a limit. -/
structure Comparable (m : Machine) (c : Chain) : Prop where
  idle : m.Idle
  unlimited : m.program.config.maxCallDepth = none
  spawnless : m.program.Spawnless
  oblivious : m.program.natives.Oblivious
  hosted : c.Hosted

/-- Within the limit, both machines make the same moves. -/
lemma Comparable.runAt_limited (h : m.Comparable c) (hk : ∀ j ≤ k, ¬m.DeepAt c limit j) :
    (m.limited limit).runAt c k = ((m.runAt c k).1, (m.runAt c k).2.limited limit) := by
  induction k with
  | zero => rfl
  | succ k ih =>
    have halone := h.idle.alone_runAt h.spawnless h.hosted k
    have hprogram := program_runAt m c k
    have hdeep := hk (k + 1) (Nat.le_refl _)
    rw [DeepAt, runChain_eq] at hdeep
    rw [runAt_succ] at hdeep ⊢
    rw [runAt_succ, ih fun j hj => hk j (Nat.le_succ_of_le hj)]
    generalize m.runAt c k = s at halone hprogram hdeep ⊢
    obtain ⟨turn, n⟩ := s
    have htick : (n.limited limit).tick? m.nextChain turn = n.tick? m.nextChain turn :=
      tick?_limited
    have hsame : (m.limited limit).nextChain = m.nextChain := rfl
    simp only [tick, hsame, htick] at hdeep ⊢
    cases hnext : n.tick? m.nextChain turn with
    | none => rfl
    | some next =>
      obtain ⟨turn', mv⟩ := next
      simp only [hnext] at hdeep ⊢
      rw [step_limited (by rw [hprogram]; exact h.unlimited) (by rw [hprogram]; exact h.oblivious)]
      rintro id d rfl hd depth a hs
      by_cases hid : id = m.nextChain
      · -- otherwise the activation would be there after this move
        subst hid
        by_contra hlt
        refine hdeep ⟨d.enter a depth, ?_, fun hshallow => hlt ?_⟩
        · rw [step_enter (by rw [hprogram]; exact h.unlimited) hd hs]
          exact chain?_setChain_self hd
        · exact hshallow ⟨a, a.entry, depth⟩ List.mem_cons_self
      · obtain ⟨outcome, hended⟩ := stage_of_hasEnded (halone.lone id d hid hd)
        rw [hs] at hended
        cases hended

/-- The first activation beyond the limit has just begun: a chain is about to execute its first
node, and all walks below are within the limit. -/
structure Overflows (limit : Nat) (d : Chain) : Prop where
  stage : d.stage = .walk
  walks : ∃ a rest, d.walks = ⟨a, a.entry, limit + 1⟩ :: rest ∧ ∀ w ∈ rest, w.depth ≤ limit

/-- Where the run without a limit goes beyond it for the first time, the run with the limit comes to
its end, in the same store. -/
lemma Comparable.exit_runAt (h : m.Comparable c) (hdeep : m.DeepAt c limit (k + 1))
    (hk : ∀ j ≤ k, ¬m.DeepAt c limit j) :
      ∃ d turn, (m.runAt c (k + 1)).2.chain? m.nextChain = some d ∧
      Overflows limit d ∧ d.task = none ∧ (m.limited limit).runAt c (k + 1) =
        (turn, ((m.runAt c (k + 1)).2.limited limit).setChain m.nextChain
          (d.exit (.error (.fault (.stackOverflow limit))))) := by
  have halone := h.idle.alone_runAt h.spawnless h.hosted k
  have hprogram := program_runAt m c k
  have hshallow := hk k (Nat.le_refl _)
  rw [DeepAt, runChain_eq] at hdeep hshallow
  rw [runAt_succ, runAt_succ (m.limited limit), h.runAt_limited hk]
  rw [runAt_succ] at hdeep
  generalize m.runAt c k = s at halone hprogram hdeep hshallow ⊢
  obtain ⟨turn, n⟩ := s
  obtain ⟨e, he, hdirect⟩ := halone.chain
  have heshallow : e.Shallow limit := by
    by_contra hnot
    exact hshallow ⟨e, he, hnot⟩
  have htick : (n.limited limit).tick? m.nextChain turn = n.tick? m.nextChain turn := tick?_limited
  have hsame : (m.limited limit).nextChain = m.nextChain := rfl
  simp only [tick, hsame, htick] at hdeep ⊢
  cases hnext : n.tick? m.nextChain turn with
  | none =>
    simp only [hnext] at hdeep
    exact absurd hdeep hshallow
  | some next =>
    obtain ⟨turn', mv⟩ := next
    simp only [hnext] at hdeep ⊢
    obtain ⟨d, hd, hnot⟩ := hdeep
    obtain ⟨rfl, depth, a, hs, rfl⟩ := deeper_step he hd
      fun hlevel => hnot (hlevel.shallow heshallow)
    have hlt : limit < depth := by
      by_contra hle
      refine hnot fun w hw => ?_
      rcases List.mem_cons.mp hw with rfl | hw
      · exact Nat.le_of_not_lt hle
      · exact heshallow w hw
    have hdepth : depth = limit + 1 := by
      rcases hdirect.start depth _ hs with rfl | ⟨w, rest, hw, rfl⟩
      · omega
      · have hle := heshallow w (hw ▸ List.mem_cons_self)
        omega
    subst hdepth
    refine ⟨_, turn', hd, ⟨rfl, a, e.walks, rfl, heshallow⟩, hdirect.task, ?_⟩
    have henter := step_enter (by rw [hprogram]; exact h.unlimited) he hs
    have hrefuse := step_refuse (m := n.limited limit) rfl hlt he hs
    rw [hrefuse, henter]
    simp only [limited, setChain, Chain.exit, Chain.enter, Array.setIfInBounds_setIfInBounds]

/-- How a host's run with a limit compares to the run without. -/
structure LimitExact (m : Machine) (c : Chain) (limit : Nat) : Prop where
  /-- A run that keeps to the limit is the same with the limit. -/
  within : ∀ fuel, (∀ k ≤ fuel, ¬m.DeepAt c limit k) →
    (m.limited limit).runChain fuel c =
      ((m.runChain fuel c).1, (m.runChain fuel c).2.limited limit)
  /-- When a run goes beyond the limit, there is a first moment at which it does. The run with the
  limit is aborted there, and what it leaves is what there was at that moment. -/
  beyond : (∃ k, m.DeepAt c limit k) → ∃ k d, (∀ j < k, ¬m.DeepAt c limit j) ∧
    (m.runChain k c).2.chain? m.nextChain = some d ∧ Overflows limit d ∧
    ∃ n, ∀ fuel ≥ n,
      ((m.limited limit).runChain fuel c).1 = some (.error (.fault (.stackOverflow limit))) ∧
      ((m.limited limit).runChain fuel c).2.store = (m.runChain k c).2.store ∧
      ((m.limited limit).runChain fuel c).2.launcher = (m.runChain k c).2.launcher
  /-- No such run has another answer. -/
  answer : (∃ k, m.DeepAt c limit k) → ∀ fuel o, ((m.limited limit).runChain fuel c).1 = some o →
    o = .error (.fault (.stackOverflow limit))

lemma not_deepAt_zero (hc : c.Hosted) : ¬m.DeepAt c limit 0 := by
  rintro ⟨d, hd, hdeep⟩
  have hd : (m.addChain c).2.chain? m.nextChain = some d := hd
  rw [chain?_addChain] at hd
  cases hd
  refine hdeep fun w hw => ?_
  cases hc with
  | atNode entry =>
    rcases List.mem_singleton.mp hw with rfl
    exact Nat.zero_le _
  | _ => cases hw

lemma Comparable.beyond (h : m.Comparable c) (hdeep : ∃ k, m.DeepAt c limit k) :
    ∃ k d, (∀ j < k, ¬m.DeepAt c limit j) ∧
      (m.runChain k c).2.chain? m.nextChain = some d ∧ Overflows limit d ∧
      ∃ n, ∀ fuel ≥ n,
        ((m.limited limit).runChain fuel c).1 = some (.error (.fault (.stackOverflow limit))) ∧
        ((m.limited limit).runChain fuel c).2.store = (m.runChain k c).2.store ∧
        ((m.limited limit).runChain fuel c).2.launcher = (m.runChain k c).2.launcher := by
  classical
  have hfirst := Nat.find_spec hdeep
  have hbefore : ∀ j < Nat.find hdeep, ¬m.DeepAt c limit j := fun j hj => Nat.find_min hdeep hj
  generalize Nat.find hdeep = first at hfirst hbefore
  cases first with
  | zero => exact absurd hfirst (not_deepAt_zero h.hosted)
  | succ k =>
    obtain ⟨d, turn, hd, hover, htask, hlimited⟩ :=
      h.exit_runAt hfirst fun j hj => hbefore j (Nat.lt_succ_of_le hj)
    have hmoment : (m.runChain (k + 1) c).2 = (m.runAt c (k + 1)).2 := by rw [runChain_eq]
    refine ⟨k + 1, d, hbefore, hmoment ▸ hd, hover, ?_⟩
    -- the chain that was refused is let go
    have hlone : (((m.runAt c (k + 1)).2.limited limit).setChain m.nextChain
        (d.exit (.error (.fault (.stackOverflow limit))))).Lone m.nextChain := by
      intro y e hy he
      rw [chain?_setChain_of_ne hy] at he
      exact (h.idle.alone_runAt h.spawnless h.hosted (k + 1)).lone y e hy he
    obtain ⟨n, next, m', hn, hstore, hlauncher, -, hended⟩ :=
      hlone.tick_exit (chain?_setChain_self hd) rfl htask turn
    have hrun : (m.limited limit).runAt c (n + (k + 1)) = (next, m') := by
      rw [runAt, Function.iterate_add_apply]
      change (tick m.nextChain)^[n] ((m.limited limit).runAt c (k + 1)) = _
      rw [hlimited, hn]
    refine ⟨n + (k + 1), fun fuel hfuel => ?_⟩
    have hanswer : ((m.limited limit).runChain (n + (k + 1)) c).1 =
        some (.error (.fault (.stackOverflow limit))) := by
      rw [runChain_eq, hrun]
      change (m'.chain? m.nextChain).bind Chain.outcome? = _
      rw [hended]
      rfl
    rw [runChain_of_answer hanswer hfuel]
    refine ⟨hanswer, ?_⟩
    rw [hmoment, runChain_eq, hrun]
    exact ⟨hstore, hlauncher⟩

/-- The limit on nesting is exact: runs that keep to it do not notice it, and runs that go beyond
are aborted where their first activation beyond the limit would have executed its first node. -/
theorem limit_exact (h : m.Comparable c) (limit : Nat) : LimitExact m c limit where
  within fuel hfuel := by
    rw [runChain_eq, runChain_eq, h.runAt_limited hfuel]
    rfl
  beyond hdeep := h.beyond hdeep
  answer hdeep fuel o ho := by
    obtain ⟨_, _, -, -, -, n, hn⟩ := h.beyond hdeep
    exact answer_unique ho (hn n (Nat.le_refl n)).1

/-- A function that calls another, which has a result. -/
def nestedCall : Graph where
  globals := 1
  nodes := #[
    { kind := .funcDecl,
      payload := some (.definition
        { name := "outer", frameSize := 1, results := 1, entry := some ⟨2⟩ }) },
    { kind := .funcDecl,
      payload := some (.definition
        { name := "inner", frameSize := 1, results := 1, entry := some ⟨4⟩ }) },
    { kind := .call, children := [⟨3⟩], slot := some 0 },
    { kind := .ident, payload := some (.func ⟨1⟩) },
    { kind := .ret, children := [⟨5⟩] },
    { kind := .basicLit, payload := some (.literal (.int 7)) }]

theorem limit_exact_nested : ∃ p, Program.load nestedCall .empty {} = .ok p ∧
    (∀ limit, LimitExact (ofProgram p true) (.ofCall (.func ⟨0⟩ none) none []) limit) ∧
    (((ofProgram p true).limited 2).call 40 (.func ⟨0⟩ none) none []).1 = some (.ok [.int 7]) ∧
    (((ofProgram p true).limited 1).call 40 (.func ⟨0⟩ none) none []).1 =
      some (.error (.fault (.stackOverflow 1))) := by
  refine ⟨_, rfl, fun limit => limit_exact ⟨fun x c hc => ?_, rfl, ?_,
    fun name symbol hname => ?_, .ofCall _ _ _⟩ limit, rfl, rfl⟩
  · simp [chain?, ofProgram] at hc
  · exact Program.spawnless_of_nodes (by decide)
  · cases hname

end Machine

end Flowgraph
