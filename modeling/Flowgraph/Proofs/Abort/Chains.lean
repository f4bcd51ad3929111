import Mathlib.Tactic.Common
import Flowgraph.Proofs.Abort.Account

/-!
# Stops abort whole chains

A stop goes through to the end of its chain. However deep the calls are nested in which it is
raised, nothing more is performed and no results are taken on the way: the chain drops all its walks
at once, keeps the stop, records it under its task number if it is a task, and answers with it. The
store stays as the operation left it that stopped. And only what was raised is ever answered.
-/

namespace Flowgraph

namespace Machine

variable {m m' start : Machine} {x : ChainId} {mv : Move} {c d : Chain} {e : Stop} {s : Store}

/-! ### Chains on their way out -/

/-- A chain was aborted and is on its way to its end, or has come there. -/
structure Unwound (m : Machine) (x : ChainId) (task : Option TaskId) (e : Stop) : Prop where
  /-- The chain has no walks left, so it is in no function and at no node, and it makes no step by
  itself. -/
  past : ∃ c, m.chain? x = some c ∧ c.task = task ∧ c.walks = [] ∧ c.stop? = some e ∧
    c.advance m.program = none
  /-- Nothing more is raised on it. -/
  still : ∀ mv e' s, ¬m.Raises x mv e' s
  /-- What it still does concerns no store and no other chain. -/
  quiet : ∀ mv, mv = .run x ∨ mv = .seeClosed x → (m.step mv).store = m.store ∧
    ∀ y, y ≠ x → (m.step mv).chain? y = m.chain? y
  /-- If it answers, it does so with the stop. -/
  answer : ∀ o, (m.chain? x).bind Chain.outcome? = some o → o = .error e
  /-- It answers after two moves of its own at the latest. -/
  soon : (((m.step (.run x)).step (.run x)).chain? x).bind Chain.outcome? = some (.error e)

lemma advance_of_stop? (h : c.stop? = some e) (p : Program) : c.advance p = none := by
  rcases Chain.stop?_eq_some h with hs | hs | hs <;> simp only [Chain.advance, hs]

/-- A chain that was aborted can no longer raise anything. -/
lemma not_raises (hc : m.chain? x = some c) (h : c.stop? = some e) (mv : Move) (e' : Stop)
    (s : Store) : ¬m.Raises x mv e' s := by
  intro hraises
  cases hraises with
  | alone hc' h' =>
    rw [hc] at hc'
    cases hc'
    obtain ⟨step, ha, -⟩ := h'.advance
    rw [advance_of_stop? h] at ha
    cases ha
  | refused hc' hs | dismissed hc' hs =>
    rw [hc] at hc'
    cases hc'
    simp [Chain.stop?, hs] at h

/-- What the next move of a chain that was aborted makes of it. -/
lemma chain?_step_of_stop? (hc : m.chain? x = some c) (h : c.stop? = some e) :
    ∃ d, (m.step (.run x)).chain? x = some d ∧ d.task = c.task ∧ d.walks = c.walks ∧
      d.stop? = some e ∧ (c.stage = .exit (.error e) ∨ d.stage = .ended (.error e)) := by
  rcases Chain.stop?_eq_some h with hs | hs | hs
  · rw [step_exit hc hs]
    exact ⟨_, chain?_setChain_self ((chain?_record _).trans hc), rfl, rfl, rfl, .inl hs⟩
  · rw [step_leave hc hs]
    exact ⟨_, chain?_setChain_self (chain?_retire.trans hc), rfl, rfl, rfl, .inr rfl⟩
  · rw [step_ended hc hs]
    exact ⟨c, hc, rfl, rfl, h, .inr hs⟩

/-- Whatever moves are made, an aborted chain stays aborted. -/
lemma exists_chain?_aborted (hc : m.chain? x = some c) (h : c.stop? = some e) (mv : Move) :
    ∃ d, (m.step mv).chain? x = some d ∧ d.task = c.task ∧ d.walks = c.walks ∧
      d.stop? = some e := by
  by_cases hrun : mv = .run x
  · subst hrun
    obtain ⟨d, hd, htask, hwalks, hstop, -⟩ := chain?_step_of_stop? hc h
    exact ⟨d, hd, htask, hwalks, hstop⟩
  · refine ⟨c, chain?_step_of_ne hrun hc (fun ch v phase hs => ?_) fun ch purpose phase hs => ?_,
      rfl, rfl, h⟩ <;> simp [Chain.stop?, hs] at h

/-- An aborted chain does nothing but to report and to leave. -/
lemma quiet_of_stop? (hc : m.chain? x = some c) (h : c.stop? = some e)
    (hmv : mv = .run x ∨ mv = .seeClosed x) :
    (m.step mv).store = m.store ∧ ∀ y, y ≠ x → (m.step mv).chain? y = m.chain? y := by
  rcases hmv with rfl | rfl
  · rcases Chain.stop?_eq_some h with hs | hs | hs
    · rw [step_exit hc hs]
      refine ⟨(chains_record m c _).2, fun y hy => ?_⟩
      rw [chain?_setChain_of_ne hy, chain?_record]
    · rw [step_leave hc hs]
      refine ⟨(chains_retire m c).2, fun y hy => ?_⟩
      rw [chain?_setChain_of_ne hy, chain?_retire]
    · rw [step_ended hc hs]
      exact ⟨rfl, fun _ _ => rfl⟩
  · have hsame : m.step (.seeClosed x) = m := by
      simp only [step, seeClosed, hc]
      rcases Chain.stop?_eq_some h with hs | hs | hs <;> simp only [hs]
    rw [hsame]
    exact ⟨rfl, fun _ _ => rfl⟩

/-- A chain without walks that carries a stop is on its way out. -/
lemma unwound_of_stop? (hc : m.chain? x = some c) (hw : c.walks = []) (h : c.stop? = some e) :
    m.Unwound x c.task e where
  past := ⟨c, hc, rfl, hw, h, advance_of_stop? h _⟩
  still := not_raises hc h
  quiet _ := quiet_of_stop? hc h
  answer o ho := by
    rw [hc, Option.bind_some, Chain.outcome?] at ho
    rcases Chain.stop?_eq_some h with hs | hs | hs <;> rw [hs] at ho <;> cases ho
    rfl
  soon := by
    obtain ⟨d, hd, -, -, hstop, hstage⟩ := chain?_step_of_stop? hc h
    obtain ⟨d', hd', -, -, hstop', hstage'⟩ := chain?_step_of_stop? hd hstop
    have hended : d'.stage = .ended (.error e) := by
      rcases hstage' with hexit | hended
      · -- the first move has left that stage
        have hleave : d.stage ≠ .exit (.error e) := by
          rcases hstage with hs | hs
          · rw [step_exit hc hs, chain?_setChain_self ((chain?_record _).trans hc)] at hd
            cases hd
            exact Stage.noConfusion
          · rw [hs]
            exact Stage.noConfusion
        exact absurd hexit hleave
      · exact hended
    rw [hd', Option.bind_some, Chain.outcome?, hended]

/-- Whatever happens, a chain that is on its way out stays so. -/
lemma Unwound.later {task : Option TaskId} (h : m.Unwound x task e)
    (hreach : Reachable (fun _ c => c.Hosted) m m') : m'.Unwound x task e := by
  induction hreach with
  | start => exact h
  | move mv _ ih =>
    obtain ⟨c, hc, rfl, hw, hstop, -⟩ := ih.past
    obtain ⟨d, hd, htask, hwalks, hstop'⟩ := exists_chain?_aborted hc hstop mv
    exact htask ▸ unwound_of_stop? hd (hwalks.trans hw) hstop'
  | @host m c _ _ ih =>
    obtain ⟨d, hd, rfl, hw, hstop, -⟩ := ih.past
    exact unwound_of_stop? (chain?_addChain_of_some hd c) hw hstop

/-! ### Where a stop leads, and where it comes from -/

/-- A move in which a stop is raised on a chain. -/
structure Aborts (m : Machine) (x : ChainId) (mv : Move) (e : Stop) (s : Store) : Prop where
  /-- At once the chain drops all its walks. Nothing else changes, but that the store is what the
  operation left that stopped. -/
  now : ∃ c, m.chain? x = some c ∧ m.step mv =
    (m.mapStore fun _ => s).setChain x (c.exit (.error e))
  /-- From then on the chain is on its way out. -/
  later : ∀ c, m.chain? x = some c → ∀ m', Reachable (fun _ c => c.Hosted) (m.step mv) m' →
    m'.Unwound x c.task e

lemma Raises.aborts (h : m.Raises x mv e s) (he : e ≠ .endless) : m.Aborts x mv e s := by
  obtain ⟨c, hc⟩ : ∃ c, m.chain? x = some c := by
    cases h with
    | alone hc | refused hc | dismissed hc => exact ⟨_, hc⟩
  have hstep := step_of_raises hc h
  have hexit : stopChain c e = c.exit (.error e) := by
    cases e with
    | endless => exact absurd rfl he
    | fault | panic => rfl
  rw [hexit] at hstep
  refine ⟨⟨c, hc, hstep⟩, fun c' hc' m' hreach => ?_⟩
  rw [hc] at hc'
  cases hc'
  refine Unwound.later ?_ hreach
  rw [hstep]
  exact unwound_of_stop? (c := c.exit (.error e)) (chain?_setChain_self hc) rfl rfl

/-- Whatever a chain carries to its end was raised on it before. -/
lemma exists_raises (hchains : start.chains = #[]) (h : Reachable (fun _ c => c.Hosted) start m)
    (hc : m.chain? x = some c) (hstop : c.stop? = some e) :
    ∃ m₀ mv s, Reachable (fun _ c => c.Hosted) start m₀ ∧ m₀.Raises x mv e s ∧
      Reachable (fun _ c => c.Hosted) (m₀.step mv) m := by
  induction h generalizing c with
  | start => simp [chain?, hchains] at hc
  | @move m mv h ih =>
    cases hd : m.chain? x with
    | none =>
      -- only a task can have appeared
      obtain ⟨_, _, _, _, _, _, _, _, rfl⟩ := launched_of_step hd hc
      cases hstop
    | some d =>
      rcases raises_of_stop? hd hc hstop with hstop' | ⟨s, hraises⟩
      · obtain ⟨m₀, mv₀, s, hm₀, hraises, hlater⟩ := ih hd hstop'
        exact ⟨m₀, mv₀, s, hm₀, hraises, .move mv hlater⟩
      · exact ⟨m, mv, s, h, hraises, .start⟩
  | @host m d h hd ih =>
    rw [chain?_addChain_eq] at hc
    split_ifs at hc with hx
    · cases hc
      cases hd <;> cases hstop
    · obtain ⟨m₀, mv₀, s, hm₀, hraises, hlater⟩ := ih hc hstop
      exact ⟨m₀, mv₀, s, hm₀, hraises, .host hlater hd⟩

lemma Reachable.reaches {admits : Machine → Chain → Prop} (h : Reachable admits start m)
    (hm : Reaches m m') : Reachable admits start m' := by
  induction hm with
  | refl => exact h
  | step m mv _ ih => exact ih (.move mv h)

/-- A step of the host that answers with a stop has come to an end because the stop was raised on
its chain. -/
lemma exists_raises_of_answer (hchains : start.chains = #[])
    (h : Reachable (fun _ c => c.Hosted) start m) (hc : c.Hosted) {fuel : Nat}
    (hanswer : (m.runChain fuel c).1 = some (.error e)) :
    ∃ m₀ mv s, Reachable (fun _ c => c.Hosted) start m₀ ∧
      m₀.Raises ⟨m.chains.size⟩ mv e s ∧
      Reachable (fun _ c => c.Hosted) (m₀.step mv) (m.runChain fuel c).2 := by
  have hreach : Reachable (fun _ c => c.Hosted) start (m.runChain fuel c).2 :=
    (Reachable.host h hc).reaches (reaches_drive _ fuel _ _)
  obtain ⟨d, hd, hd'⟩ := Option.bind_eq_some_iff.mp hanswer
  refine exists_raises hchains hreach hd ?_
  simp only [Chain.outcome?] at hd'
  split at hd'
  case h_1 hs =>
    cases hd'
    simp only [Chain.stop?, hs]
  case h_2 => cases hd'

/-- What stops mean for the chains of a machine that a host has come to. -/
structure StopsAbort (start m : Machine) : Prop where
  /-- A stop that is raised on a chain aborts it at once, and is all that it ever answers. -/
  aborts : ∀ x mv e s, e ≠ .endless → m.Raises x mv e s → m.Aborts x mv e s
  /-- A chain answers with a stop only if that stop was raised on it. -/
  raised : ∀ x c e, m.chain? x = some c → c.stop? = some e →
    ∃ m₀ mv s, Reachable (fun _ c => c.Hosted) start m₀ ∧ m₀.Raises x mv e s ∧
      Reachable (fun _ c => c.Hosted) (m₀.step mv) m
  /-- So is it with what a host is answered. -/
  answered : ∀ c fuel e, c.Hosted → (m.runChain fuel c).1 = some (.error e) →
    ∃ m₀ mv s, Reachable (fun _ c => c.Hosted) start m₀ ∧ m₀.Raises ⟨m.chains.size⟩ mv e s ∧
      Reachable (fun _ c => c.Hosted) (m₀.step mv) (m.runChain fuel c).2
  /-- Under the number of a task stands the fault that the task was aborted with, once it has left,
  and nothing else. -/
  recorded : ∀ x c t, m.chain? x = some c → c.task = some t → m.launcher.faultsOf t = c.reported
  /-- Nothing is recorded but for tasks. -/
  known : ∀ r ∈ m.launcher.faults, r.1.index < start.launcher.started ∨
    ∃ x c, m.chain? x = some c ∧ c.task = some r.1

/-- In whichever order moves are made and however deep calls are nested, a stop aborts the whole
chain on which it is raised, unchanged and at once, and no chain is aborted by anything else. -/
theorem stops_abort (hchains : start.chains = #[])
    (hfaults : ∀ r ∈ start.launcher.faults, r.1.index < start.launcher.started)
    (h : Reachable (fun _ c => c.Hosted) start m) : StopsAbort start m where
  aborts _ _ _ _ he hraises := hraises.aborts he
  raised _ _ _ hc hstop := exists_raises hchains h hc hstop
  answered _ _ _ hc hanswer := exists_raises_of_answer hchains h hc hanswer
  recorded x c t hc ht := by
    have haccount := h.accounted (ended_of_empty hchains) hfaults
    rw [hchains] at haccount
    exact haccount.recorded x c t ⟨Nat.zero_le _, hc⟩ ht
  known r hr := by
    have haccount := h.accounted (ended_of_empty hchains) hfaults
    exact (haccount.known r (.inr hr)).imp_right fun ⟨x, c, hc, ht⟩ => ⟨x, c, hc.2, ht⟩

/-- A function that divides by zero, and one that calls it and keeps its result. -/
def nestedDivision : Graph where
  globals := 1
  nodes := #[
    { kind := .funcDecl,
      payload := some (.definition
        { name := "outer", frameSize := 1, results := 1, entry := some ⟨2⟩ }) },
    { kind := .funcDecl,
      payload := some (.definition
        { name := "inner", frameSize := 1, results := 1, entry := some ⟨4⟩ }) },
    { kind := .call, children := [⟨3⟩], slot := some 0 },
    { kind := .ident, payload := some (.func ⟨1⟩) },
    { kind := .binary .quo, children := [⟨5⟩, ⟨6⟩], slot := some 0 },
    { kind := .basicLit, payload := some (.literal (.int 1)) },
    { kind := .basicLit, payload := some (.literal (.int 0)) }]

/-- The machine in which the inner function is about to divide. -/
def dividing (p : Program) : Machine :=
  (List.replicate 4 (.run ⟨0⟩) : List Move).foldl step
    ((ofProgram p true).addChain (.ofCall (.func ⟨0⟩ none) none [])).2

theorem stops_abort_nested : ∃ p, Program.load nestedDivision .empty {} = .ok p ∧
    StopsAbort (ofProgram p true) (dividing p) ∧
    (dividing p).Raises ⟨0⟩ (.run ⟨0⟩) (.fault .divisionByZero) (dividing p).store ∧
    (((dividing p).chain? ⟨0⟩).map fun c => c.walks.length) = some 2 ∧
    ((ofProgram p true).call 40 (.func ⟨0⟩ none) none []).1 =
      some (.error (.fault .divisionByZero)) := by
  refine ⟨_, rfl, ?_, .alone rfl (.operation rfl rfl rfl rfl), rfl, rfl⟩
  exact stops_abort rfl (fun r hr => absurd hr List.not_mem_nil)
    (.moves _ (.host .start (.ofCall _ _ _)))

end Machine

end Flowgraph
