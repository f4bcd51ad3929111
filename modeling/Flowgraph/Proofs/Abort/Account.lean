import Mathlib.Tactic.Common
import Flowgraph.Proofs.Abort.Raises
import Flowgraph.Proofs.Tasks.Bookkeeping

/-!
# The account of tasks

Every task number is given to one chain, and the faults that are recorded under a number are those
that its chain has reported. This holds after every move, whatever the tasks do.
-/

namespace Flowgraph

/-- The faults that are recorded under a task number. -/
def Launcher.faultsOf (l : Launcher) (t : TaskId) : List Fault :=
  l.faults.filterMap fun r => if r.1 = t then some r.2 else none

/-- The faults that a list has under a task number. -/
def faultsUnder (rs : List (TaskId × Fault)) (t : TaskId) : List Fault :=
  rs.filterMap fun r => if r.1 = t then some r.2 else none

namespace Chain

/-- What a task has reported: the fault with which it was aborted, once it has left. -/
def reported (c : Chain) : List Fault :=
  match c.stage with
  | .leave (.error e) | .ended (.error e) => e.recorded?.toList
  | _ => []

/-- A task number is in use by a chain: it is the chain's own, or that of the task that it is
about to launch. -/
def Holds (c : Chain) (t : TaskId) : Prop :=
  c.task = some t ∨ ∃ callee, c.stage = .launch t callee

lemma reported_proceed (c : Chain) : c.proceed.reported = [] := by
  simp only [proceed]
  split_ifs <;> rfl

lemma task_proceed (c : Chain) : c.proceed.task = c.task := by
  simp only [proceed]
  split_ifs <;> rfl

/-- What becomes of a chain concerns no account of tasks. -/
structure Unbooked (c d : Chain) : Prop where
  task : d.task = c.task
  reported : d.reported = c.reported
  launch : ∀ t callee, d.stage = .launch t callee → c.stage = .launch t callee

lemma Unbooked.refl (c : Chain) : c.Unbooked c := ⟨rfl, rfl, fun _ _ h => h⟩

lemma Unbooked.holds {c d : Chain} {t : TaskId} (h : c.Unbooked d) (ht : d.Holds t) :
    c.Holds t := by
  rcases ht with ht | ⟨callee, ht⟩
  · exact .inl (h.task ▸ ht)
  · exact .inr ⟨callee, h.launch t callee ht⟩

variable {p : Program} {c d : Chain} {m : Machine}

/-- Protocols book nothing, but when a task is spawned, is launched or has ended. -/
lemma unbooked_restaged (h : m.Restaged c d) (hspawn : ∀ callee, c.stage ≠ .spawn callee)
    (hexit : ∀ outcome, c.stage ≠ .exit outcome) : c.Unbooked d := by
  have hproceed : c.reported = [] → c.Unbooked c.proceed := fun hr =>
    ⟨c.task_proceed, by rw [reported_proceed, hr], fun t callee ht => by
      simp only [proceed, exit] at ht
      split_ifs at ht⟩
  cases h with
  | reserved hs => exact absurd hs (hspawn _)
  | leaving hs => exact absurd hs (hexit _)
  | sent hs | awake hs | enlisted hs => exact hproceed (by simp only [reported, hs])
  | @ended outcome hs =>
    refine ⟨rfl, ?_, fun t callee ht => by cases ht⟩
    cases outcome <;> simp only [reported, hs]
  | sending | refused | receiving | received | asleep | launched | denied | withdrawn | joining
  | joined =>
    exact ⟨rfl, by simp only [reported, exit, *], fun t callee ht => by cases ht⟩

/-- A chain that makes a step by itself has reported nothing. -/
lemma reported_of_advance {step : Op Chain} (ha : c.advance p = some step) : c.reported = [] := by
  cases hs : c.stage <;> simp_all [advance, reported]

/-- A step of a chain by itself books nothing. -/
lemma unbooked_onward (ht : d.task = c.task) (hd : d.stage.isOnward = true)
    (hc : c.reported = []) : c.Unbooked d where
  task := ht
  reported := by
    rw [hc]
    cases hs : d.stage <;> simp_all [Chain.reported, Stage.isOnward]
  launch t callee hs := by
    rw [hs] at hd
    cases hd

end Chain

namespace Machine

variable {m m' : Machine} {id x : ChainId} {mv : Move} {c d : Chain} {t : TaskId} {N : Nat}

/-- A chain works for the same task in all moves. -/
lemma task_step (hc : m.chain? x = some c) (hd : (m.step mv).chain? x = some d) :
    d.task = c.task := by
  cases next_of_step hc hd with
  | same => rfl
  | restaged hr => cases hr <;> first | rfl | exact c.task_proceed
  | advanced _ ha hr => exact (Chain.steps_of_advance ha hr).task
  | @stopped _ e _ _ _ _ => cases e <;> rfl

/-! ### What a move books -/

/-- What a move does to the account of task numbers and of faults. -/
inductive Books (m : Machine) : Move → Machine → Prop
  | nothing {mv : Move} {m' : Machine} (hstarted : m'.launcher.started = m.launcher.started)
    (hfaults : m'.launcher.faults = m.launcher.faults)
    (hchains : ∀ x d, m'.chain? x = some d → ∃ c, m.chain? x = some c ∧ c.Unbooked d) :
    Books m mv m'
  | reserve {id : ChainId} {c : Chain} {callee : Callee} (hc : m.chain? id = some c)
    (hs : c.stage = .spawn callee) : Books m (.run id) (m.reserve id c callee)
  | grant {id : ChainId} {c : Chain} {t : TaskId} {callee : Callee} (hc : m.chain? id = some c)
    (hs : c.stage = .launch t callee) : Books m (.run id) (m.grant id c t callee)
  | record {id : ChainId} {c : Chain} {outcome : Outcome} (hc : m.chain? id = some c)
    (hs : c.stage = .exit outcome) :
    Books m (.run id) ((m.record c outcome).setChain id { c with stage := .leave outcome })

/-- A move that spawns no task, starts none and ends none. -/
def Plain (m : Machine) (mv : Move) : Prop :=
  ∀ id c, mv = .run id → m.chain? id = some c → (∀ callee, c.stage ≠ .spawn callee) ∧
    (∀ t callee, c.stage = .launch t callee → m.program.config.refusal? t.index ≠ none) ∧
    ∀ outcome, c.stage ≠ .exit outcome

lemma launcher_step (h : m.Plain mv) :
    (m.step mv).launcher.started = m.launcher.started ∧
      (m.step mv).launcher.faults = m.launcher.faults := by
  have hbooks := m.bookkeeping_step mv
  generalize (m.step mv).launcher = l at hbooks
  cases hbooks with
  | same | denied | withdrawn | enlisted | taken => exact ⟨rfl, rfl⟩
  | retired => rw [retire_launcher]; exact ⟨rfl, rfl⟩
  | reserved hc hs => exact absurd hs ((h _ _ rfl hc).1 _)
  | launched hc hs hr => exact absurd hr ((h _ _ rfl hc).2.1 _ _ hs)
  | recorded hc hs => exact absurd hs ((h _ _ rfl hc).2.2 _)

lemma unbooked_step (h : m.Plain mv) (hc : m.chain? x = some c)
    (hd : (m.step mv).chain? x = some d) : c.Unbooked d := by
  cases next_of_step hc hd with
  | same => exact .refl c
  | restaged hr =>
    by_cases hfree : (∀ callee, c.stage ≠ .spawn callee) ∧ ∀ outcome, c.stage ≠ .exit outcome
    · exact Chain.unbooked_restaged hr hfree.1 hfree.2
    · -- a chain that spawns or ends waits for its own turn, and this is not it
      have hne : mv ≠ .run x := fun hmv => hfree ⟨(h x c hmv hc).1, (h x c hmv hc).2.2⟩
      have hstays := chain?_step_of_ne hne hc
        (fun ch v phase hs => hfree ⟨by simp [hs], by simp [hs]⟩)
        (fun ch purpose phase hs => hfree ⟨by simp [hs], by simp [hs]⟩)
      rw [hd] at hstays
      cases hstays
      exact .refl _
  | advanced _ ha hr =>
    have hsteps := Chain.steps_of_advance ha hr
    exact Chain.unbooked_onward hsteps.task hsteps.onward (Chain.reported_of_advance ha)
  | @stopped _ e _ _ ha _ =>
    have hreported := Chain.reported_of_advance ha
    cases e <;> exact ⟨rfl, hreported.symm, nofun⟩

/-- No other chains appear. -/
lemma exists_chain?_of_plain (h : m.Plain mv) (hd : (m.step mv).chain? x = some d) :
    ∃ c, m.chain? x = some c := by
  cases hc : m.chain? x with
  | some c => exact ⟨c, rfl⟩
  | none =>
    obtain ⟨y, c, t, callee, rfl, hy, hs, -⟩ := launched_of_step hc hd
    exact absurd (granted_of_step hc hd hy hs) ((h y c rfl hy).2.1 t callee hs)

/-- Whatever a move books is one of these. -/
theorem books_step (m : Machine) (mv : Move) : m.Books mv (m.step mv) := by
  by_cases h : m.Plain mv
  · obtain ⟨hstarted, hfaults⟩ := launcher_step h
    refine .nothing hstarted hfaults fun x d hd => ?_
    obtain ⟨c, hc⟩ := exists_chain?_of_plain h hd
    exact ⟨c, hc, unbooked_step h hc hd⟩
  · simp only [Plain, not_forall] at h
    obtain ⟨id, c, rfl, hc, h⟩ := h
    rw [not_and_or, not_and_or] at h
    simp only [not_forall, not_not] at h
    rcases h with ⟨callee, hs⟩ | ⟨t, callee, hs, hr⟩ | ⟨outcome, hs⟩
    · simp only [step, run, hc, hs]
      exact .reserve hc hs
    · rw [step_grant hc hs hr]
      exact .grant hc hs
    · simp only [step, run, hc, hs]
      exact .record hc hs

/-! ### The account -/

/-- A chain that has come since the account is kept: it is not among the first `K`. -/
def Since (K : Nat) (m : Machine) (x : ChainId) (c : Chain) : Prop :=
  K ≤ x.index ∧ m.chain? x = some c

/-- The account is kept for all chains but the first `K`, which have ended. Task numbers from `N` on
are in use by one chain each, and what stands under the number of a task, together with what has
been taken from there, is what the task has reported. -/
structure Accounted (K N : Nat) (taken : List (TaskId × Fault)) (m : Machine) : Prop where
  size : K ≤ m.chains.size
  enough : N ≤ m.launcher.started
  before : ∀ x c, x.index < K → m.chain? x = some c → c.hasEnded = true
  numbered : ∀ x c t, m.Since K x c → c.Holds t → N ≤ t.index ∧ t.index < m.launcher.started
  unique : ∀ x y c d t, m.Since K x c → m.Since K y d → c.Holds t → d.Holds t → x = y
  apart : ∀ x c t callee, m.Since K x c → c.stage = .launch t callee → c.task ≠ some t
  recorded : ∀ x c t, m.Since K x c → c.task = some t →
    faultsUnder taken t ++ m.launcher.faultsOf t = c.reported
  known : ∀ r, r ∈ taken ∨ r ∈ m.launcher.faults →
    r.1.index < N ∨ ∃ x c, m.Since K x c ∧ c.task = some r.1

variable {K : Nat} {taken : List (TaskId × Fault)}

/-- A chain that has not ended has come since the account is kept. -/
lemma Accounted.since (h : m.Accounted K N taken) (hc : m.chain? x = some c)
    (hended : c.hasEnded = false) : m.Since K x c := by
  refine ⟨Nat.not_lt.mp fun hlt => ?_, hc⟩
  rw [h.before x c hlt hc] at hended
  cases hended

/-! ### What lasts -/

/-- Chains stay and work for the same tasks, and those that have ended stay as they are. -/
structure Continues (m m' : Machine) : Prop where
  size : m.chains.size ≤ m'.chains.size
  task : ∀ x c, m.chain? x = some c → ∃ d, m'.chain? x = some d ∧ d.task = c.task
  ended : ∀ x c, m.chain? x = some c → c.hasEnded = true → m'.chain? x = some c

lemma continues_step (m : Machine) (mv : Move) : m.Continues (m.step mv) where
  size := m.size_step mv
  task x c hc := by
    obtain ⟨d, hd⟩ := exists_chain?_step ⟨c, hc⟩ mv
    exact ⟨d, hd, task_step hc hd⟩
  ended x c hc hdone := chain?_of_hasEnded hc hdone mv

lemma continues_addChain (m : Machine) (c : Chain) : m.Continues (m.addChain c).2 where
  size := by simp only [addChain, Array.size_push, Nat.le_add_right]
  task x d hd := ⟨d, chain?_addChain_of_some hd c, rfl⟩
  ended x d hd _ := chain?_addChain_of_some hd c

/-- The first chains have still ended. -/
lemma Accounted.hasEnded (h : m.Accounted K N taken) (hm : m.Continues m') (hx : x.index < K)
    (hd : m'.chain? x = some d) : d.hasEnded = true := by
  have hc : m.chain? x = some _ := Array.getElem?_eq_getElem (Nat.lt_of_lt_of_le hx h.size)
  have hdone := h.before x _ hx hc
  cases hd.symm.trans (hm.ended x _ hc hdone)
  exact hdone

/-- Faults that are known are still those of tasks. -/
lemma Accounted.known_of_continues (h : m.Accounted K N taken) (hm : m.Continues m')
    {r : TaskId × Fault} (hr : r ∈ taken ∨ r ∈ m.launcher.faults) :
    r.1.index < N ∨ ∃ x d, m'.Since K x d ∧ d.task = some r.1 := by
  refine (h.known r hr).imp_right ?_
  rintro ⟨x, c, ⟨hK, hc⟩, ht⟩
  obtain ⟨d, hd, htask⟩ := hm.task x c hc
  exact ⟨x, d, ⟨hK, hd⟩, htask.trans ht⟩

/-! ### What moves book -/

/-- Nothing is booked. -/
lemma Accounted.nothing (h : m.Accounted K N taken) (hm : m.Continues m')
    (hstarted : m'.launcher.started = m.launcher.started)
    (hfaults : m'.launcher.faults = m.launcher.faults)
    (hchains : ∀ x d, m'.chain? x = some d → ∃ c, m.chain? x = some c ∧ c.Unbooked d) :
    m'.Accounted K N taken := by
  have hsince : ∀ x d, m'.Since K x d → ∃ c, m.Since K x c ∧ c.Unbooked d := by
    rintro x d ⟨hK, hd⟩
    obtain ⟨c, hc, hcd⟩ := hchains x d hd
    exact ⟨c, ⟨hK, hc⟩, hcd⟩
  constructor
  case size => exact Nat.le_trans h.size hm.size
  case enough => exact hstarted ▸ h.enough
  case before => exact fun x d => h.hasEnded hm
  case numbered =>
    intro x d t hd ht
    obtain ⟨c, hc, hcd⟩ := hsince x d hd
    rw [hstarted]
    exact h.numbered x c t hc (hcd.holds ht)
  case unique =>
    intro x y d d' t hd hd' ht ht'
    obtain ⟨c, hc, hcd⟩ := hsince x d hd
    obtain ⟨c', hc', hcd'⟩ := hsince y d' hd'
    exact h.unique x y c c' t hc hc' (hcd.holds ht) (hcd'.holds ht')
  case apart =>
    intro x d t callee hd hs
    obtain ⟨c, hc, hcd⟩ := hsince x d hd
    rw [hcd.task]
    exact h.apart x c t callee hc (hcd.launch t callee hs)
  case recorded =>
    intro x d t hd ht
    obtain ⟨c, hc, hcd⟩ := hsince x d hd
    rw [Launcher.faultsOf, hfaults, hcd.reported]
    exact h.recorded x c t hc (hcd.task ▸ ht)
  case known => exact fun r hr => h.known_of_continues hm (hfaults ▸ hr)

/-- A number that no chain has is recorded nowhere. -/
lemma Accounted.faultsOf_eq_nil (h : m.Accounted K N taken) (hN : N ≤ t.index)
    (hfree : ∀ x c, m.Since K x c → c.task ≠ some t) :
    faultsUnder taken t ++ m.launcher.faultsOf t = [] := by
  have hnone : ∀ r, r ∈ taken ∨ r ∈ m.launcher.faults → r.1 ≠ t := by
    rintro r hr rfl
    rcases h.known r hr with hlt | ⟨x, c, hc, ht⟩
    · exact Nat.not_lt_of_le hN hlt
    · exact hfree x c hc ht
  rw [List.append_eq_nil_iff]
  constructor
  · exact List.filterMap_eq_nil_iff.mpr fun r hr => if_neg (hnone r (.inl hr))
  · exact List.filterMap_eq_nil_iff.mpr fun r hr => if_neg (hnone r (.inr hr))

lemma of_chain?_reserve {callee : Callee} (hd : (m.reserve id c callee).chain? x = some d) :
    m.chain? x = some d ∨
      x = id ∧ d = { c with stage := .launch ⟨m.launcher.started⟩ callee } :=
  of_chain?_setChain hd

/-- Whoever has a number afterwards had it before, or it is the next one. -/
lemma holds_reserve {callee : Callee} (hid : m.Since K id c)
    (hd : (m.reserve id c callee).Since K x d) (ht : d.Holds t) :
    (∃ c, m.Since K x c ∧ c.Holds t) ∨ x = id ∧ t = ⟨m.launcher.started⟩ := by
  obtain ⟨hK, hd⟩ := hd
  rcases of_chain?_reserve hd with hd | ⟨rfl, rfl⟩
  · exact .inl ⟨d, ⟨hK, hd⟩, ht⟩
  · rcases ht with ht | ⟨callee', ht⟩
    · exact .inl ⟨c, hid, .inl ht⟩
    · cases ht
      exact .inr ⟨rfl, rfl⟩

/-- The next number is given to a chain that is about to launch a task. -/
lemma Accounted.reserve (h : m.Accounted K N taken) (hc : m.chain? id = some c) {callee : Callee}
    (hs : c.stage = .spawn callee) (hm : m.Continues (m.reserve id c callee)) :
    (m.reserve id c callee).Accounted K N taken := by
  have hid : m.Since K id c := h.since hc (hasEnded_of_stage hs)
  have hfresh : ∀ x d, m.Since K x d → ¬d.Holds ⟨m.launcher.started⟩ := fun x d hd ht =>
    Nat.lt_irrefl _ (h.numbered x d _ hd ht).2
  constructor
  case size => exact Nat.le_trans h.size hm.size
  case enough => exact Nat.le_succ_of_le h.enough
  case before => exact fun x d => h.hasEnded hm
  case numbered =>
    intro x d t hd ht
    rcases holds_reserve hid hd ht with ⟨c', hc', ht'⟩ | ⟨-, rfl⟩
    · exact (h.numbered x c' t hc' ht').imp_right Nat.lt_succ_of_lt
    · exact ⟨h.enough, Nat.lt_succ_self _⟩
  case unique =>
    intro x y d d' t hd hd' ht ht'
    rcases holds_reserve hid hd ht with ⟨e, he, hte⟩ | ⟨rfl, rfl⟩ <;>
      rcases holds_reserve hid hd' ht' with ⟨e', he', hte'⟩ | ⟨rfl, hnew⟩
    · exact h.unique x y e e' t he he' hte hte'
    · subst hnew
      exact absurd hte (hfresh x e he)
    · exact absurd hte' (hfresh y e' he')
    · rfl
  case apart =>
    rintro x d t callee' ⟨hK, hd⟩ hsd
    rcases of_chain?_reserve hd with hd | ⟨rfl, rfl⟩
    · exact h.apart x d t callee' ⟨hK, hd⟩ hsd
    · cases hsd
      exact fun ht => hfresh x c hid (.inl ht)
  case recorded =>
    rintro x d t ⟨hK, hd⟩ ht
    rcases of_chain?_reserve hd with hd | ⟨rfl, rfl⟩
    · exact h.recorded x d t ⟨hK, hd⟩ ht
    · refine (h.recorded x c t hid ht).trans ?_
      simp only [Chain.reported, hs]
  case known => exact fun r => h.known_of_continues hm

lemma chain?_grant (m : Machine) (id : ChainId) (c : Chain) (t : TaskId) (callee : Callee)
    (x : ChainId) : (m.grant id c t callee).chain? x =
      ((m.addChain (.ofTask t callee)).2.setChain id
      { c with stage := .enlist ⟨m.chains.size⟩ }).chain? x := rfl

lemma of_chain?_grant {callee : Callee} (hc : m.chain? id = some c)
    (hd : (m.grant id c t callee).chain? x = some d) :
    x ≠ id ∧ m.chain? x = some d ∨ x = id ∧ d = { c with stage := .enlist ⟨m.chains.size⟩ } ∨
      x = ⟨m.chains.size⟩ ∧ d = .ofTask t callee := by
  by_cases hx : x = id
  · subst hx
    have hadd := chain?_addChain_of_some hc (.ofTask t callee)
    rw [chain?_grant, chain?_setChain_self hadd] at hd
    cases hd
    exact .inr (.inl ⟨rfl, rfl⟩)
  · rw [chain?_grant, chain?_setChain_of_ne hx, chain?_addChain_eq] at hd
    split_ifs at hd with hnew
    · cases hd
      exact .inr (.inr ⟨by cases x; exact congrArg ChainId.mk hnew, rfl⟩)
    · exact .inl ⟨hx, hd⟩

/-- No task has the number of a task that is about to be launched. -/
lemma Accounted.task_ne (h : m.Accounted K N taken) (hid : m.Since K id c) {callee : Callee}
    (hs : c.stage = .launch t callee) (hd : m.Since K x d) : d.task ≠ some t := by
  intro ht
  cases h.unique x id d c t hd hid (.inl ht) (.inr ⟨callee, hs⟩)
  cases hid.2.symm.trans hd.2
  exact h.apart id c t callee hid hs ht

/-- Whoever has a number afterwards had it before, or it is the task that was launched. -/
lemma Accounted.holds_grant (h : m.Accounted K N taken) (hid : m.Since K id c) {callee : Callee}
    (hs : c.stage = .launch t callee) {t' : TaskId} (hd : (m.grant id c t callee).Since K x d)
    (ht : d.Holds t') : (x ≠ id ∨ t' ≠ t) ∧ (∃ c', m.Since K x c' ∧ c'.Holds t') ∨
      x = ⟨m.chains.size⟩ ∧ t' = t := by
  obtain ⟨hK, hd⟩ := hd
  rcases of_chain?_grant hid.2 hd with ⟨hx, hd⟩ | ⟨rfl, rfl⟩ | ⟨rfl, rfl⟩
  · exact .inl ⟨.inl hx, d, ⟨hK, hd⟩, ht⟩
  · rcases ht with ht | ⟨callee', ht⟩
    · refine .inl ⟨.inr ?_, c, hid, .inl ht⟩
      rintro rfl
      exact h.task_ne hid hs hid ht
    · cases ht
  · rcases ht with ht | ⟨callee', ht⟩
    · cases ht
      exact .inr ⟨rfl, rfl⟩
    · cases ht

/-- The number of a task passes to the task's own chain. -/
lemma Accounted.grant (h : m.Accounted K N taken) (hc : m.chain? id = some c) {callee : Callee}
    (hs : c.stage = .launch t callee) (hm : m.Continues (m.grant id c t callee)) :
    (m.grant id c t callee).Accounted K N taken := by
  have hid : m.Since K id c := h.since hc (hasEnded_of_stage hs)
  have hholds : c.Holds t := .inr ⟨callee, hs⟩
  constructor
  case size => exact Nat.le_trans h.size hm.size
  case enough => exact h.enough
  case before => exact fun x d => h.hasEnded hm
  case numbered =>
    intro x d t' hd ht
    rcases h.holds_grant hid hs hd ht with ⟨-, c', hc', ht'⟩ | ⟨-, rfl⟩
    · exact h.numbered x c' t' hc' ht'
    · exact h.numbered id c t' hid hholds
  case unique =>
    intro x y d d' t' hd hd' ht ht'
    rcases h.holds_grant hid hs hd ht with ⟨hx, e, he, hte⟩ | ⟨hx, ht⟩ <;>
      rcases h.holds_grant hid hs hd' ht' with ⟨hy, e', he', hte'⟩ | ⟨hy, ht'⟩
    · exact h.unique x y e e' t' he he' hte hte'
    · subst ht'
      exact absurd (h.unique x id e c _ he hid hte hholds) (by simpa using hx)
    · subst ht
      exact absurd (h.unique y id e' c _ he' hid hte' hholds) (by simpa using hy)
    · rw [hx, hy]
  case apart =>
    rintro x d t' callee' ⟨hK, hd⟩ hsd
    rcases of_chain?_grant hc hd with ⟨-, hd⟩ | ⟨-, rfl⟩ | ⟨-, rfl⟩
    · exact h.apart x d t' callee' ⟨hK, hd⟩ hsd
    · cases hsd
    · cases hsd
  case recorded =>
    rintro x d t' ⟨hK, hd⟩ ht
    rcases of_chain?_grant hc hd with ⟨-, hd⟩ | ⟨-, rfl⟩ | ⟨-, rfl⟩
    · exact h.recorded x d t' ⟨hK, hd⟩ ht
    · refine (h.recorded id c t' hid ht).trans ?_
      simp only [Chain.reported, hs]
    · cases ht
      exact h.faultsOf_eq_nil (h.numbered id c t hid hholds).1 fun x d => h.task_ne hid hs
  case known => exact fun r => h.known_of_continues hm

lemma faultsOf_append (l : Launcher) (rs : List (TaskId × Fault)) (t : TaskId) :
    ({ l with faults := l.faults ++ rs } : Launcher).faultsOf t =
      l.faultsOf t ++ rs.filterMap fun r => if r.1 = t then some r.2 else none :=
  List.filterMap_append

/-- A task that comes to its end records its fault under its own number. -/
lemma faultsOf_record {outcome : Outcome} (t : TaskId) :
    (m.record c outcome).launcher.faultsOf t = m.launcher.faultsOf t ++
      if c.task = some t then ({ c with stage := .leave outcome } : Chain).reported else [] := by
  cases htask : c.task with
  | none => simp [record, htask]
  | some task =>
    cases outcome with
    | ok vs => simp [record, htask, Chain.reported]
    | error e =>
      simp only [record, htask, faultsOf_append, Chain.reported, Option.some.injEq]
      cases e.recorded? with
      | none => simp
      | some f => by_cases ht : task = t <;> simp [ht]

lemma mem_faults_record {outcome : Outcome} {r : TaskId × Fault}
    (h : r ∈ (m.record c outcome).launcher.faults) :
    r ∈ m.launcher.faults ∨ c.task = some r.1 := by
  simp only [record] at h
  split at h
  case h_1 task e htask =>
    refine (List.mem_append.mp h).imp_right fun h => ?_
    obtain ⟨f, -, rfl⟩ := List.mem_map.mp h
    exact htask
  case h_2 => exact .inl h

lemma of_chain?_record {outcome : Outcome} (hc : m.chain? id = some c)
    (hd : ((m.record c outcome).setChain id { c with stage := .leave outcome }).chain? x = some d) :
    x ≠ id ∧ m.chain? x = some d ∨ x = id ∧ d = { c with stage := .leave outcome } := by
  by_cases hx : x = id
  · subst hx
    rw [chain?_setChain_self ((chain?_record outcome).trans hc)] at hd
    cases hd
    exact .inr ⟨rfl, rfl⟩
  · rw [chain?_setChain_of_ne hx, chain?_record] at hd
    exact .inl ⟨hx, hd⟩

/-- Whoever has a number afterwards had it before. -/
lemma holds_record {outcome : Outcome} (hid : m.Since K id c)
    (hd : ((m.record c outcome).setChain id { c with stage := .leave outcome }).Since K x d)
    (ht : d.Holds t) : ∃ c', m.Since K x c' ∧ c'.Holds t := by
  obtain ⟨hK, hd⟩ := hd
  rcases of_chain?_record hid.2 hd with ⟨-, hd⟩ | ⟨rfl, rfl⟩
  · exact ⟨d, ⟨hK, hd⟩, ht⟩
  · rcases ht with ht | ⟨callee, ht⟩
    · exact ⟨c, hid, .inl ht⟩
    · cases ht

/-- What a task reports is recorded under its own number. -/
lemma Accounted.record (h : m.Accounted K N taken) (hc : m.chain? id = some c) {outcome : Outcome}
    (hs : c.stage = .exit outcome)
    (hm : m.Continues ((m.record c outcome).setChain id { c with stage := .leave outcome })) :
    ((m.record c outcome).setChain id { c with stage := .leave outcome }).Accounted K N taken := by
  have hid : m.Since K id c := h.since hc (hasEnded_of_stage hs)
  have hstarted := started_record m c outcome
  constructor
  case size => exact Nat.le_trans h.size hm.size
  case enough => exact hstarted ▸ h.enough
  case before => exact fun x d => h.hasEnded hm
  case numbered =>
    intro x d t hd ht
    obtain ⟨c', hc', ht'⟩ := holds_record hid hd ht
    exact hstarted ▸ h.numbered x c' t hc' ht'
  case unique =>
    intro x y d d' t hd hd' ht ht'
    obtain ⟨e, he, hte⟩ := holds_record hid hd ht
    obtain ⟨e', he', hte'⟩ := holds_record hid hd' ht'
    exact h.unique x y e e' t he he' hte hte'
  case apart =>
    rintro x d t callee ⟨hK, hd⟩ hsd
    rcases of_chain?_record hc hd with ⟨-, hd⟩ | ⟨rfl, rfl⟩
    · exact h.apart x d t callee ⟨hK, hd⟩ hsd
    · cases hsd
  case recorded =>
    rintro x d t ⟨hK, hd⟩ ht
    have hfaults : ((m.record c outcome).setChain id
        { c with stage := .leave outcome }).launcher.faultsOf t = m.launcher.faultsOf t ++
          if c.task = some t then ({ c with stage := .leave outcome } : Chain).reported else [] :=
      faultsOf_record t
    rw [hfaults, ← List.append_assoc]
    rcases of_chain?_record hc hd with ⟨hx, hd⟩ | ⟨rfl, rfl⟩
    · have hne : c.task ≠ some t := fun hct =>
        hx (h.unique x id d c t ⟨hK, hd⟩ hid (.inl ht) (.inl hct))
      rw [if_neg hne, List.append_nil]
      exact h.recorded x d t ⟨hK, hd⟩ ht
    · have hnone : c.reported = [] := by simp only [Chain.reported, hs]
      have ht' : c.task = some t := ht
      rw [if_pos ht', h.recorded x c t hid ht', hnone, List.nil_append]
  case known =>
    intro r hr
    have hr : (r ∈ taken ∨ r ∈ m.launcher.faults) ∨ c.task = some r.1 := by
      rcases hr with hr | hr
      · exact .inl (.inl hr)
      · exact (mem_faults_record hr).imp_left .inr
    rcases hr with hr | hr
    · exact h.known_of_continues hm hr
    · obtain ⟨d, hd, htask⟩ := hm.task id c hc
      exact .inr ⟨id, d, ⟨hid.1, hd⟩, htask.trans hr⟩

/-- The account is right after every move. -/
lemma Accounted.step (h : m.Accounted K N taken) (mv : Move) :
    (m.step mv).Accounted K N taken := by
  have hm := m.continues_step mv
  have hbooks := m.books_step mv
  generalize m.step mv = m' at hbooks hm
  cases hbooks with
  | nothing hstarted hfaults hchains => exact h.nothing hm hstarted hfaults hchains
  | reserve hc hs => exact h.reserve hc hs hm
  | grant hc hs => exact h.grant hc hs hm
  | record hc hs => exact h.record hc hs hm

/-- Whoever has a number after a move had it before, or somebody had, or it is the next one. -/
lemma Accounted.of_holds_step (h : m.Accounted K N taken) (hd : (m.step mv).Since K x d)
    (ht : d.Holds t) : (∃ y c, m.Since K y c ∧ c.Holds t) ∨ t = ⟨m.launcher.started⟩ := by
  have hbooks := m.books_step mv
  generalize m.step mv = m' at hbooks hd
  cases hbooks with
  | nothing _ _ hchains =>
    obtain ⟨c, hc, hcd⟩ := hchains x d hd.2
    exact .inl ⟨x, c, ⟨hd.1, hc⟩, hcd.holds ht⟩
  | reserve hc hs =>
    rcases holds_reserve (h.since hc (hasEnded_of_stage hs)) hd ht with ⟨c, hc, ht⟩ | ⟨-, rfl⟩
    · exact .inl ⟨x, c, hc, ht⟩
    · exact .inr rfl
  | grant hc hs =>
    have hid := h.since hc (hasEnded_of_stage hs)
    rcases h.holds_grant hid hs hd ht with ⟨-, c, hc, ht⟩ | ⟨-, rfl⟩
    · exact .inl ⟨x, c, hc, ht⟩
    · exact .inl ⟨_, _, hid, .inr ⟨_, hs⟩⟩
  | record hc hs =>
    obtain ⟨c, hc, ht⟩ := holds_record (h.since hc (hasEnded_of_stage hs)) hd ht
    exact .inl ⟨x, c, hc, ht⟩

/-- A chain that a host begins is no task. -/
lemma task_hosted (h : c.Hosted) : c.task = none := by
  cases h <;> rfl

/-- A chain that a host begins has no number. -/
lemma not_holds_hosted (h : c.Hosted) : ¬c.Holds t := by
  rintro (ht | ⟨callee, hs⟩)
  · rw [task_hosted h] at ht
    cases ht
  · cases h <;> cases hs

lemma Accounted.addChain (h : m.Accounted K N taken) (hc : c.Hosted) :
    (m.addChain c).2.Accounted K N taken := by
  have hchains : ∀ x d t, (m.addChain c).2.Since K x d → d.Holds t → m.Since K x d := by
    rintro x d t ⟨hK, hd⟩ ht
    rw [chain?_addChain_eq] at hd
    split_ifs at hd with hx
    · cases hd
      exact absurd ht (not_holds_hosted hc)
    · exact ⟨hK, hd⟩
  have hm := m.continues_addChain c
  constructor
  case size => exact Nat.le_trans h.size hm.size
  case enough => exact h.enough
  case before => exact fun x d => h.hasEnded hm
  case numbered => exact fun x d t hd ht => h.numbered x d t (hchains x d t hd ht) ht
  case unique =>
    intro x y d d' t hd hd' ht ht'
    exact h.unique x y d d' t (hchains x d t hd ht) (hchains y d' t hd' ht') ht ht'
  case apart =>
    exact fun x d t callee hd hs => h.apart x d t callee (hchains x d t hd (.inr ⟨callee, hs⟩)) hs
  case recorded => exact fun x d t hd ht => h.recorded x d t (hchains x d t hd (.inl ht)) ht
  case known => exact fun r => h.known_of_continues hm

/-- When faults are taken, they are still accounted for. -/
lemma Accounted.takeFaults (h : m.Accounted K N taken) :
    m.takeFaults.2.Accounted K N (taken ++ m.takeFaults.1) where
  size := h.size
  enough := h.enough
  before := h.before
  numbered := h.numbered
  unique := h.unique
  apart := h.apart
  recorded x c t hc ht := by
    have hnone : m.takeFaults.2.launcher.faultsOf t = [] := rfl
    have hunder : faultsUnder (taken ++ m.takeFaults.1) t =
        faultsUnder taken t ++ m.launcher.faultsOf t := List.filterMap_append
    rw [hnone, hunder, List.append_nil]
    exact h.recorded x c t hc ht
  known r hr := by
    have hnone : r ∉ m.takeFaults.2.launcher.faults := List.not_mem_nil
    exact h.known r (List.mem_append.mp (hr.resolve_right hnone))

lemma ended_of_empty (h : m.chains = #[]) (x : ChainId) (c : Chain) (hc : m.chain? x = some c) :
    c.hasEnded = true := by
  simp [chain?, h] at hc

/-- An account can be kept from any point on where all chains have ended. -/
lemma accounted_of_ended (hended : ∀ x c, m.chain? x = some c → c.hasEnded = true)
    (hfaults : ∀ r ∈ m.launcher.faults, r.1.index < m.launcher.started) :
    Accounted m.chains.size m.launcher.started [] m := by
  have hnone : ∀ x c, ¬m.Since m.chains.size x c := fun x c hc =>
    Nat.not_lt_of_le hc.1 (Array.getElem?_eq_some_iff.mp hc.2).1
  constructor
  case size => exact Nat.le_refl _
  case enough => exact Nat.le_refl _
  case before => exact fun x c _ hc => hended x c hc
  case known => exact fun r hr => .inl (hfaults r (hr.resolve_left List.not_mem_nil))
  case numbered => exact fun x c _ hc => absurd hc (hnone x c)
  case unique => exact fun x _ c _ _ hc => absurd hc (hnone x c)
  case apart => exact fun x c _ _ hc => absurd hc (hnone x c)
  case recorded => exact fun x c _ hc => absurd hc (hnone x c)

/-- In whichever order moves are made, and whatever hosts begin, the account is right: task numbers
are given out once, and under the number of a task stands what the task has reported. -/
theorem Reachable.accounted {start : Machine} (h : Reachable (fun _ c => c.Hosted) start m)
    (hended : ∀ x c, start.chain? x = some c → c.hasEnded = true)
    (hfaults : ∀ r ∈ start.launcher.faults, r.1.index < start.launcher.started) :
    m.Accounted start.chains.size start.launcher.started [] := by
  induction h with
  | start => exact accounted_of_ended hended hfaults
  | move mv _ ih => exact ih.step mv
  | host _ hc ih => exact ih.addChain hc

end Machine

end Flowgraph
