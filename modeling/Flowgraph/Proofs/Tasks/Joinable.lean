import Flowgraph.Proofs.Abort.Account
import Flowgraph.Proofs.Depth.Exact

/-!
# Tasks that can be joined

As long as a task has not ended, somebody knows of it who waits for tasks: the launcher has it among
those to be joined, or a chain is about to enter it there, or a chain waits for it already.
-/

namespace Flowgraph

/-- A chain is about to have another one joined, or waits for it. -/
def Chain.Lists (c : Chain) (y : ChainId) : Prop :=
  match c.stage with
  | .enlist child => child = y
  | .join chains => y ∈ chains
  | _ => False

namespace Machine

variable {m : Machine} {x y : ChainId} {c d : Chain} {mv : Move}

/-- Whoever waits for all tasks waits for this one. -/
def Lists (m : Machine) (y : ChainId) : Prop :=
  y ∈ m.launcher.handles ∨ ∃ x c, m.chain? x = some c ∧ c.Lists y

/-- All tasks that have not ended can be joined. -/
def Joinable (m : Machine) : Prop :=
  ∀ y c, m.chain? y = some c → c.task.isSome = true → c.hasEnded = false → m.Lists y

/-- Chains to be joined are added or taken only by chains that are there to do so. -/
lemma handles_step (h : ∀ x c, mv = .run x → m.chain? x = some c →
    (∀ child, c.stage ≠ .enlist child) ∧ ∀ chains, c.stage ≠ .join chains) :
    (m.step mv).launcher.handles = m.launcher.handles := by
  have hbooks := m.bookkeeping_step mv
  generalize (m.step mv).launcher = l at hbooks
  cases hbooks with
  | same | reserved | launched | denied | withdrawn => rfl
  | recorded => exact handles_record ..
  | retired => rw [retire_launcher]
  | enlisted hc hs => exact absurd hs ((h _ _ rfl hc).1 _)
  | taken hc hs => exact absurd hs ((h _ _ rfl hc).2 _)

/-- Those who wait for a chain do so until it is their turn. -/
lemma lists_of_ne (hc : m.chain? x = some c) (h : c.Lists y) (hmv : mv ≠ .run x) :
    (m.step mv).Lists y := by
  refine .inr ⟨x, c, chain?_step_of_ne hmv hc ?_ ?_, h⟩
  all_goals
    intro _ _ _ hs
    simp [Chain.Lists, hs] at h

lemma lists_enlist {child : ChainId} (hc : m.chain? x = some c) (hs : c.stage = .enlist child)
    (h : m.Lists y) (hended : m.hasEnded y = false) : (m.step (.run x)).Lists y := by
  have hhandles : (m.step (.run x)).launcher.handles =
      (m.launcher.handles.filter fun h => !m.hasEnded h) ++ [child] := by
    simp only [step, run, hc, hs]
    rfl
  rcases h with h | ⟨z, d, hd, hlists⟩
  · refine .inl ?_
    rw [hhandles]
    exact List.mem_append_left _ (List.mem_filter.mpr ⟨h, by rw [hended]; rfl⟩)
  · by_cases hz : z = x
    · subst hz
      rw [hc] at hd
      cases hd
      simp only [Chain.Lists, hs] at hlists
      refine .inl ?_
      rw [hhandles, hlists]
      exact List.mem_append_right _ (List.mem_singleton_self y)
    · exact lists_of_ne hd hlists fun hmv => hz (Move.run.inj hmv).symm

lemma lists_join {chains : List ChainId} (hc : m.chain? x = some c) (hs : c.stage = .join chains)
    (h : m.Lists y) (hended : m.hasEnded y = false) : (m.step (.run x)).Lists y := by
  have hself : ∀ {z d}, m.chain? z = some d → d.Lists y → z ≠ x → (m.step (.run x)).Lists y :=
    fun hd hlists hz => lists_of_ne hd hlists fun hmv => hz (Move.run.inj hmv).symm
  have hstep : m.step (.run x) = m.join x c chains := by simp only [step, run, hc, hs]
  cases chains with
  | nil =>
    rcases h with h | ⟨z, d, hd, hlists⟩
    · have hjoin : m.join x c [] =
        { m with launcher := { m.launcher with handles := [] } }.setChain x
          { c with stage := .join m.launcher.handles } := by
        simp only [join]
        split
        case h_1 hnil =>
          rw [hnil] at h
          cases h
        case h_2 => rfl
      refine .inr ⟨x, { c with stage := .join m.launcher.handles }, ?_, h⟩
      rw [hstep, hjoin]
      exact chain?_setChain_self (c := c) hc
    · refine hself hd hlists ?_
      rintro rfl
      rw [hc] at hd
      cases hd
      simp [Chain.Lists, hs] at hlists
  | cons first rest =>
    rw [join] at hstep
    rcases h with h | ⟨z, d, hd, hlists⟩
    · refine .inl ?_
      rw [hstep]
      split_ifs <;> exact h
    · by_cases hz : z = x
      · subst hz
        rw [hc] at hd
        cases hd
        rw [hstep]
        split_ifs with hfirst
        · simp only [Chain.Lists, hs] at hlists
          rcases List.mem_cons.mp hlists with rfl | hrest
          · rw [hended] at hfirst
            cases hfirst
          · exact .inr ⟨z, _, chain?_setChain_self hc, hrest⟩
        · exact .inr ⟨z, c, hc, hlists⟩
      · exact hself hd hlists hz

/-- A chain that has not ended stays where it is known. -/
lemma lists_step (h : m.Lists y) (hended : m.hasEnded y = false) (mv : Move) :
    (m.step mv).Lists y := by
  by_cases hplain : ∀ x c, mv = .run x → m.chain? x = some c →
      (∀ child, c.stage ≠ .enlist child) ∧ ∀ chains, c.stage ≠ .join chains
  · rcases h with h | ⟨x, c, hc, hlists⟩
    · exact .inl (by rwa [handles_step hplain])
    · refine lists_of_ne hc hlists fun hmv => ?_
      obtain ⟨henlist, hjoin⟩ := hplain x c hmv hc
      cases hs : c.stage with
      | enlist child => exact henlist child hs
      | join chains => exact hjoin chains hs
      | _ => simp [Chain.Lists, hs] at hlists
  · simp only [not_forall] at hplain
    obtain ⟨x, c, rfl, hc, hplain⟩ := hplain
    rw [not_and_or] at hplain
    simp only [not_forall, not_not] at hplain
    rcases hplain with ⟨child, hs⟩ | ⟨chains, hs⟩
    · exact lists_enlist hc hs h hended
    · exact lists_join hc hs h hended

/-- No task is forgotten. -/
theorem Joinable.step (h : m.Joinable) (mv : Move) : (m.step mv).Joinable := by
  intro y d hd htask hended
  cases hc : m.chain? y with
  | some c =>
    have hcended : c.hasEnded = false := by
      by_contra hne
      have hsame := chain?_of_hasEnded hc (Bool.not_eq_false _ ▸ hne) mv
      rw [hd] at hsame
      cases hsame
      exact hne hended
    refine lists_step (h y c hc (task_step hc hd ▸ htask) hcended) ?_ mv
    rw [Machine.hasEnded, hc]
    exact hcended
  | none =>
    obtain ⟨x, c, t, callee, rfl, hx, hs, rfl, -⟩ := launched_of_step hc hd
    have hstep : m.step (.run x) = m.grant x c t callee :=
      step_grant hx hs (granted_of_step hc hd hx hs)
    refine .inr ⟨x, { c with stage := .enlist ⟨m.chains.size⟩ }, ?_, rfl⟩
    rw [hstep, chain?_grant]
    exact chain?_setChain_self (chain?_addChain_of_some hx _)

/-- What a host begins is no task. -/
lemma Joinable.addChain (h : m.Joinable) (hc : c.Hosted) : (m.addChain c).2.Joinable := by
  intro y d hd htask hended
  rw [chain?_addChain_eq] at hd
  split_ifs at hd with hnew
  · cases hd
    rw [task_hosted hc] at htask
    cases htask
  · exact (h y d hd htask hended).imp_right fun ⟨x, e, he, hlists⟩ =>
      ⟨x, e, chain?_addChain_of_some he c, hlists⟩

/-! ### Those who can be joined are tasks -/

/-- Whoever is waited for is a task. -/
def Listed (m : Machine) : Prop :=
  ∀ y, m.Lists y → ∃ c, m.chain? y = some c ∧ c.task.isSome = true

lemma lists_of_join {chains : List ChainId} (hc : m.chain? x = some c)
    (hs : c.stage = .join chains) (h : (m.step (.run x)).Lists y) : m.Lists y := by
  have hself : ∀ z ∈ chains, m.Lists z := fun z hz => by
    refine .inr ⟨x, c, hc, ?_⟩
    rw [Chain.Lists, hs]
    exact hz
  have hstep : m.step (.run x) = m.join x c chains := by simp only [step, run, hc, hs]
  have hset : ∀ {l : Launcher} {next : Chain},
      (({ m with launcher := l } : Machine).setChain x next).Lists y → (y ∈ l.handles → m.Lists y) →
        (next.Lists y → m.Lists y) → m.Lists y := by
    intro l next h hl hnext
    rcases h with h | ⟨z, d, hd, hlists⟩
    · exact hl h
    · rcases of_chain?_setChain hd with hd | ⟨-, rfl⟩
      · exact .inr ⟨z, d, hd, hlists⟩
      · exact hnext hlists
  rw [hstep] at h
  cases chains with
  | nil =>
    simp only [join] at h
    split at h
    case h_1 hnone => exact hset (l := m.launcher) h (fun h => .inl h) fun h => by cases h
    case h_2 => exact hset h (fun h => by cases h) fun h => .inl h
  | cons first rest =>
    simp only [join] at h
    split_ifs at h
    · exact hset (l := m.launcher) h (fun h => .inl h)
        fun h => hself y (List.mem_cons_of_mem first h)
    · exact h

lemma lists_of_enlist {child : ChainId} (hc : m.chain? x = some c) (hs : c.stage = .enlist child)
    (h : (m.step (.run x)).Lists y) : m.Lists y := by
  have hstep : m.step (.run x) = m.enlist x c child := by simp only [step, run, hc, hs]
  rw [hstep] at h
  rcases h with h | ⟨z, d, hd, hlists⟩
  · rcases List.mem_append.mp h with h | h
    · exact .inl (List.mem_of_mem_filter h)
    · refine .inr ⟨x, c, hc, ?_⟩
      rw [Chain.Lists, hs]
      exact (List.mem_singleton.mp h).symm
  · rcases of_chain?_setChain hd with hd | ⟨-, rfl⟩
    · exact .inr ⟨z, d, hd, hlists⟩
    · simp only [Chain.proceed] at hlists
      split_ifs at hlists <;> cases hlists

/-- A chain that has come to wait for another one was about to wait, or has launched a task. -/
lemma lists_of_restaged {e d : Chain} (hr : m.Restaged e d) (h : d.Lists y) :
    (∃ t callee, e.stage = .launch t callee) ∨ ∃ chains, e.stage = .join chains := by
  cases hr with
  | launched hs => exact .inl ⟨_, _, hs⟩
  | joining hs => exact .inr ⟨_, hs⟩
  | sent | awake | enlisted =>
    simp only [Chain.proceed] at h
    split_ifs at h <;> cases h
  | _ => cases h

/-- A chain that launches a task is about to have it joined. -/
lemma ofTask_of_launch {t : TaskId} {callee : Callee} (hc : m.chain? x = some c)
    (hs : c.stage = .launch t callee) (hd : (m.step (.run x)).chain? x = some d) (h : d.Lists y) :
    (m.step (.run x)).chain? y = some (.ofTask t callee) := by
  cases hr : m.program.config.refusal? t.index with
  | some message =>
    rw [step_deny hc hs hr, refuse, chain?_setChain_self (by exact hc)] at hd
    cases hd
    cases h
  | none =>
  rw [step_grant hc hs hr, chain?_grant] at hd ⊢
  rw [chain?_setChain_self (chain?_addChain_of_some hc _)] at hd
  cases hd
  have hy : y = ⟨m.chains.size⟩ := h.symm
  have hlt : x.index < m.chains.size := (Array.getElem?_eq_some_iff.mp hc).1
  have hne : y ≠ x := by
    rintro rfl
    rw [hy] at hlt
    exact Nat.lt_irrefl _ hlt
  rw [chain?_setChain_of_ne hne, hy]
  exact m.chain?_addChain _

/-- Nobody is waited for by a chain who was not before, but for a task that has just been
launched. -/
lemma lists_of_chain (hc : m.chain? x = some c) (hd : (m.step mv).chain? x = some d)
    (h : d.Lists y) (hjoin : mv = .run x → ∀ chains, c.stage ≠ .join chains) :
    c.Lists y ∨ ∃ t callee, (m.step mv).chain? y = some (.ofTask t callee) := by
  cases next_of_step hc hd with
  | same => exact .inl h
  | restaged hr =>
    have hs := lists_of_restaged hr h
    by_cases hmv : mv = .run x
    · subst hmv
      rcases hs with ⟨t, callee, hs⟩ | ⟨chains, hs⟩
      · exact .inr ⟨t, callee, ofTask_of_launch hc hs hd h⟩
      · exact absurd hs (hjoin rfl chains)
    · have hstays := chain?_step_of_ne hmv hc
        (fun ch v phase he => by rcases hs with ⟨_, _, hs⟩ | ⟨_, hs⟩ <;> simp [he] at hs)
        fun ch purpose phase he => by rcases hs with ⟨_, _, hs⟩ | ⟨_, hs⟩ <;> simp [he] at hs
      rw [hd] at hstays
      cases hstays
      exact .inl h
  | advanced _ ha hr =>
    have honward := (Chain.steps_of_advance ha hr).onward
    cases hs : d.stage <;> simp_all [Stage.isOnward, Chain.Lists]
  | @stopped _ e _ _ _ _ => cases e <;> cases h

/-- Nobody is waited for who was not, but for a task that has just been launched. -/
lemma lists_of_step (h : (m.step mv).Lists y) :
    m.Lists y ∨ ∃ t callee, (m.step mv).chain? y = some (.ofTask t callee) := by
  by_cases hplain : ∀ x c, mv = .run x → m.chain? x = some c →
      (∀ child, c.stage ≠ .enlist child) ∧ ∀ chains, c.stage ≠ .join chains
  · rcases h with h | ⟨x, d, hd, hlists⟩
    · rw [handles_step hplain] at h
      exact .inl (.inl h)
    · cases hc : m.chain? x with
      | none =>
        obtain ⟨_, _, _, _, -, -, -, -, rfl⟩ := launched_of_step hc hd
        cases hlists
      | some c =>
        exact (lists_of_chain hc hd hlists fun hmv => (hplain x c hmv hc).2).imp_left
          fun hlists => .inr ⟨x, c, hc, hlists⟩
  · simp only [not_forall] at hplain
    obtain ⟨x, c, rfl, hc, hplain⟩ := hplain
    rw [not_and_or] at hplain
    simp only [not_forall, not_not] at hplain
    rcases hplain with ⟨child, hs⟩ | ⟨chains, hs⟩
    · exact .inl (lists_of_enlist hc hs h)
    · exact .inl (lists_of_join hc hs h)

/-- Nobody else is ever waited for. -/
theorem Listed.step (h : m.Listed) (mv : Move) : (m.step mv).Listed := by
  intro y hy
  rcases lists_of_step hy with hlists | ⟨t, callee, htask⟩
  · obtain ⟨c, hc, hsome⟩ := h y hlists
    obtain ⟨d, hd⟩ := exists_chain?_step ⟨c, hc⟩ mv
    exact ⟨d, hd, task_step hc hd ▸ hsome⟩
  · exact ⟨_, htask, rfl⟩

lemma Listed.addChain (h : m.Listed) (hc : c.Hosted) : (m.addChain c).2.Listed := by
  intro y hy
  have hlists : m.Lists y := by
    refine hy.imp_right fun ⟨x, d, hd, hlists⟩ => ?_
    rw [chain?_addChain_eq] at hd
    split_ifs at hd
    · cases hd
      cases hc <;> cases hlists
    · exact ⟨x, d, hd, hlists⟩
  obtain ⟨d, hd, hsome⟩ := h y hlists
  exact ⟨d, chain?_addChain_of_some hd c, hsome⟩

/-- Where all chains have ended, there is nothing to join. -/
lemma Idle.joinable (h : m.Idle) : m.Joinable := fun y c hc _ hended => by
  rw [h y c hc] at hended
  cases hended

end Machine

end Flowgraph
