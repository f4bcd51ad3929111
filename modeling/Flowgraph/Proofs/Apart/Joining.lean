import Flowgraph.Proofs.Apart.Phases

/-!
# Waiting for tasks

A chain of the host that waits for tasks comes to its end only after all tasks have.
-/

namespace Flowgraph

namespace Jobs

variable {J : Jobs} {k : Nat} {P Q : Plan} {m m' : Machine} {x y : ChainId} {c : Chain}
  {o : Outcome} {mv : Move}

/-- A chain waits for tasks, or there is nobody left to wait for. -/
structure Joining (x : ChainId) (P : Plan) (m : Machine) : Prop where
  role : P.roles x = .joins
  joinable : m.Joinable
  waits : (∃ c l, m.chain? x = some c ∧ c.stage = .join l) ∨
    ∀ y c, y ≠ x → m.chain? y = some c → c.hasEnded = true

variable (hJ : J.Independent) (hp : J.start.program.Loaded) (hn : J.start.program.natives.Blind)
  (hs : J.start.store.Closed) (hgrants : J.start.program.config.Grants)

/-- Chains that wait for tasks go on when there is nobody left to wait for. -/
lemma Joining.ended_of_exit (h : Joining x P m) (hhost : J.Host k P m x)
    (hsolo : ∀ i g, P.shares i = some g → (P.points i).stage.isSolo = true)
    (hc : m.chain? x = some c) (hs : c.stage = .join []) (hnone : m.launcher.handles = [])
    {d : Chain} (hy : y ≠ x) (hd : m.chain? y = some d) : d.hasEnded = true := by
  by_contra hended
  rw [Bool.not_eq_true] at hended
  have hserves : ∀ z e, z ≠ x → m.chain? z = some e → e.hasEnded = false →
      ∃ i t, J.Plays P (.serves i [] (some t)) e := by
    intro z e hz he hlive
    rcases hhost.others z hz e he with hdone | ⟨i, t, hrole⟩
    · rw [hlive] at hdone
      cases hdone
    · exact ⟨i, t, hrole ▸ hhost.crew.plays z e he⟩
  obtain ⟨i, t, hplays⟩ := hserves y d hy hd hended
  have htask : d.task.isSome = true := by
    cases hplays with
    | serves _ _ htask => rw [htask]; rfl
  rcases h.joinable y d hd htask hended with hmem | ⟨z, e, he, hlists⟩
  · rw [hnone] at hmem
    cases hmem
  · by_cases hz : z = x
    · subst hz
      rw [hc] at he
      cases he
      simp [Chain.Lists, hs] at hlists
    · have hlive : e.hasEnded = false := by
        by_contra hdone
        obtain ⟨o, hs'⟩ := Machine.stage_of_hasEnded (Bool.not_eq_false _ ▸ hdone)
        simp [Chain.Lists, hs'] at hlists
      obtain ⟨i', t', hplays'⟩ := hserves z e hz he hlive
      have hquiet := Crew.not_dealing hsolo hplays'
      cases hs' : e.stage with
      | enlist | join =>
        rw [hs'] at hquiet
        cases hquiet
      | _ => simp [Chain.Lists, hs'] at hlists

include hJ hp hn hs

lemma Joining.step (h : Joining x P m) (hhost : J.Host k P m x)
    (hQ : J.Change k P m mv Q (m.step mv)) : Joining x Q (m.step mv) := by
  have hrole : Q.roles x = .joins :=
    (hQ.turnover.same (by rw [h.role]; rfl) (by rw [h.role]; rintro ⟨⟩)).trans h.role
  refine ⟨hrole, h.joinable.step mv, ?_⟩
  rcases h.waits with ⟨c, l, hc, hstage⟩ | hended
  · by_cases hmv : mv = .run x
    · subst hmv
      have hstep : m.step (.run x) = m.join x c l := by
        simp only [Machine.step, Machine.run, hc, hstage]
      rw [hstep]
      cases l with
      | cons first rest =>
        simp only [Machine.join]
        split_ifs
        · exact .inl ⟨_, rest, Machine.chain?_setChain_self hc, rfl⟩
        · exact .inl ⟨c, _, hc, hstage⟩
      | nil =>
        simp only [Machine.join]
        split
        case h_1 hnone =>
          refine .inr fun y d hy hd => ?_
          rw [Machine.chain?_setChain_of_ne hy] at hd
          exact h.ended_of_exit hhost
            (fun i g hi => (hhost.crew.sound hJ hp hn hs hi).2.2.2.1) hc hstage hnone hy hd
        case h_2 => exact .inl ⟨_, _, Machine.chain?_setChain_self (c := c) hc, rfl⟩
    · exact .inl ⟨c, l, (hQ.others x c hmv hc).1, hstage⟩
  · refine .inr fun y d hy hd => ?_
    cases hc : m.chain? y with
    | none =>
      obtain ⟨z, i, t, hz, -⟩ := hQ.created y d hc hd
      have hbegin : (P.roles z).isBeginning = false := by
        by_cases hzx : z = x
        · rw [hzx, h.role]
          rfl
        · exact hhost.crew.isBeginning_of_attends (hhost.others z hzx)
      rw [hz] at hbegin
      cases hbegin
    | some c =>
      have hdone := hended y c hy hc
      rw [Machine.chain?_of_hasEnded hc hdone] at hd
      cases hd
      exact hdone

include hgrants

/-- The host waits for all tasks, and its chain comes to an end: then all chains have. -/
theorem Stands.run_ofJoin (h : J.Stands k P m) (hjoinable : m.Joinable)
    (hr : (m.addChain .ofJoin).2.Reaches m')
    (ho : (m'.chain? m.nextChain).bind Chain.outcome? = some o) :
    ∃ Q, J.Crew k Q m' ∧ P.Upholds Q ∧ m'.Idle ∧ o = .ok [] := by
  have hjoining : Joining m.nextChain (P.assign m.nextChain .joins) (m.addChain .ofJoin).2 :=
    ⟨P.assign_self .., hjoinable.addChain .ofJoin, .inl ⟨_, [], m.chain?_addChain _, rfl⟩⟩
  obtain ⟨Q, hhost, hjoined, hupholds⟩ := Host.run hJ hp hn hs hgrants (x := m.nextChain)
    (I := Joining m.nextChain)
    (fun P m mv Q hhost hI hQ _ => hI.step hJ hp hn hs hhost hQ) hr h.host_ofJoin hjoining
  obtain ⟨c, hc, hended, hhas⟩ := Machine.ended_of_outcome ho
  refine ⟨Q, hhost.crew, (h.upholds_assign _).trans hupholds, fun y d hd => ?_, ?_⟩
  · by_cases hy : y = m.nextChain
    · subst hy
      rw [hc] at hd
      cases hd
      exact hhas
    · rcases hjoined.waits with ⟨c', l, hc', hstage⟩ | hall
      · rw [hc] at hc'
        cases hc'
        rw [hended] at hstage
        cases hstage
      · exact hall y d hy hd
  · have hplays := hhost.crew.plays m.nextChain c hc
    rw [hjoined.role] at hplays
    cases hplays with
    | joins hj =>
      rcases hj with ⟨-, l, hstage⟩ | hpart
      · rw [hended] at hstage
        cases hstage
      · exact hpart.of_ended hended

end Jobs

end Flowgraph
