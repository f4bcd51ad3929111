import Mathlib.Data.Finset.Card
import Mathlib.Order.Interval.Finset.Nat
import Flowgraph.Proofs.Abort.Account

/-!
# Counting tasks

What the launcher counts as live are the tasks that have been launched and have not come to their
ends, and besides them, for a while, those that could not be started: a task is counted before the
system is asked for a thread, and that is taken back when the thread is refused. The number of such
a task stays used.
-/

namespace Flowgraph

namespace Chain

/-- A chain is that of a task that has not come to its end. -/
def isLive (c : Chain) : Bool := c.task.isSome && !c.hasEnded

/-- A chain is about to take back that a task counts as live, whose thread was refused. -/
def isWithdrawing (c : Chain) : Bool :=
  match c.stage with
  | .withdraw _ => true
  | _ => false

lemma isWithdrawing_of_ne {c : Chain} (h : ∀ message, c.stage ≠ .withdraw message) :
    c.isWithdrawing = false := by
  rw [isWithdrawing]
  split
  case h_1 message hs => exact absurd hs (h message)
  case h_2 => rfl

end Chain

namespace Machine

variable {m m' : Machine} {x y : ChainId} {c d : Chain} {mv : Move} {t : TaskId} {i : ℕ}
  {test : Chain → Bool} {taken : List (TaskId × Fault)}

/-! ### Places of chains -/

/-- The places of the chains that pass a test. -/
def places (m : Machine) (test : Chain → Bool) : Finset ℕ :=
  (Finset.range m.chains.size).filter fun i => (m.chain? ⟨i⟩).any test

lemma mem_places : i ∈ m.places test ↔ ∃ c, m.chain? ⟨i⟩ = some c ∧ test c = true := by
  rw [places, Finset.mem_filter, Finset.mem_range, Option.any_eq_true]
  constructor
  · exact And.right
  · rintro ⟨c, hc, htest⟩
    exact ⟨(Array.getElem?_eq_some_iff.mp hc).1, c, hc, htest⟩

lemma mem_places_of_chain (hc : m.chain? x = some c) :
    x.index ∈ m.places test ↔ test c = true := by
  rw [mem_places]
  exact ⟨fun ⟨_, hd, h⟩ => Option.some.inj (hc.symm.trans hd) ▸ h, fun h => ⟨c, hc, h⟩⟩

/-- The places stay the same if all chains keep passing the test or failing it, and new ones
fail. -/
lemma places_step (hold : ∀ x c d, m.chain? x = some c → (m.step mv).chain? x = some d →
      test d = test c)
    (hnew : ∀ x d, m.chain? x = none → (m.step mv).chain? x = some d → test d = false) :
    (m.step mv).places test = m.places test := by
  ext i
  rw [mem_places, mem_places]
  constructor
  · rintro ⟨d, hd, htest⟩
    cases hc : m.chain? ⟨i⟩ with
    | some c => exact ⟨c, rfl, hold _ c d hc hd ▸ htest⟩
    | none =>
      rw [hnew _ d hc hd] at htest
      cases htest
  · rintro ⟨c, hc, htest⟩
    obtain ⟨d, hd⟩ := exists_chain?_step ⟨c, hc⟩ mv
    exact ⟨d, hd, (hold _ c d hc hd).trans htest⟩

lemma mem_places_setChain (hc : m.chain? x = some c) : i ∈ (m.setChain x d).places test ↔
    if i = x.index then test d = true else i ∈ m.places test := by
  split_ifs with hi
  · subst hi
    exact mem_places_of_chain (chain?_setChain_self hc)
  · rw [mem_places, chain?_setChain_of_ne (mt (congrArg ChainId.index) hi), mem_places]

/-- A chain joins those that pass the test. -/
lemma places_insert (hc : m.chain? x = some c) (h : test d = true) :
    (m.setChain x d).places test = insert x.index (m.places test) := by
  ext i
  rw [mem_places_setChain hc, Finset.mem_insert]
  split_ifs with hi
  · exact ⟨fun _ => .inl hi, fun _ => h⟩
  · exact ⟨.inr, fun h => h.resolve_left hi⟩

/-- A chain leaves those that pass the test. -/
lemma places_erase (hc : m.chain? x = some c) (h : test d = false) :
    (m.setChain x d).places test = (m.places test).erase x.index := by
  ext i
  rw [mem_places_setChain hc, Finset.mem_erase, h]
  split_ifs with hi
  · exact ⟨fun h => (by cases h), fun h => absurd hi h.1⟩
  · exact ⟨fun h => ⟨hi, h⟩, And.right⟩

/-- A chain that begins and fails the test changes nothing. -/
lemma places_addChain (h : test c = false) : (m.addChain c).2.places test = m.places test := by
  ext i
  rw [mem_places, mem_places, chain?_addChain_eq]
  split_ifs with hi
  · have hnone : m.chain? ⟨i⟩ = none := Array.getElem?_eq_none (Nat.le_of_eq hi.symm)
    rw [hnone]
    constructor
    · rintro ⟨d, hd, htest⟩
      cases hd
      rw [h] at htest
      cases htest
    · rintro ⟨d, hd, -⟩
      cases hd
  · rfl

lemma places_of_chains (h : m'.chains = m.chains) : m'.places test = m.places test := by
  rw [places, places, h]
  exact Finset.filter_congr fun i _ => by rw [chain?, chain?, h]

/-! ### Tasks at work -/

/-- The places of the tasks that have been launched and have not come to their ends. -/
def atWork (m : Machine) : Finset ℕ := m.places Chain.isLive

lemma leave_of_restaged {o : Outcome} (hr : m.Restaged c d) (hs : d.stage = .ended o) :
    c.stage = .leave o := by
  cases hr with
  | ended hs' =>
    cases hs
    exact hs'
  | sent | awake | enlisted =>
    simp only [Chain.proceed] at hs
    split_ifs at hs
    all_goals cases hs
  | _ => cases hs

/-- A chain comes to its end when it leaves, in its own turn. -/
lemma leave_of_step (hc : m.chain? x = some c) (hd : (m.step mv).chain? x = some d)
    (h : c.hasEnded = false) (hended : d.hasEnded = true) :
      mv = .run x ∧ ∃ o, c.stage = .leave o := by
  obtain ⟨o, hs⟩ := stage_of_hasEnded hended
  cases next_of_step hc hd with
  | same =>
    rw [h] at hended
    cases hended
  | restaged hr =>
    have hleave := leave_of_restaged hr hs
    refine ⟨?_, o, hleave⟩
    by_contra hne
    have hstays := chain?_step_of_stage hne hc hleave
    rw [hd] at hstays
    cases hstays
    rw [h] at hended
    cases hended
  | advanced _ ha hr =>
    have honward := (Chain.steps_of_advance ha hr).onward
    rw [hs] at honward
    cases honward
  | @stopped _ e _ _ _ _ => cases e <;> cases hs

/-- A move that starts no task and lets none leave. -/
def Steady (m : Machine) (mv : Move) : Prop :=
  ∀ x c, mv = .run x → m.chain? x = some c →
    (∀ t callee, c.stage = .launch t callee → m.program.config.refusal? t.index ≠ none) ∧
    ∀ o, c.stage ≠ .leave o

lemma steady_run (hc : m.chain? x = some c)
    (hl : ∀ t callee, c.stage = .launch t callee → m.program.config.refusal? t.index ≠ none)
    (hr : ∀ o, c.stage ≠ .leave o) : m.Steady (.run x) := by
  rintro y d ⟨⟩ hd
  cases hc.symm.trans hd
  exact ⟨hl, hr⟩

lemma isLive_step (h : m.Steady mv) (hc : m.chain? x = some c)
    (hd : (m.step mv).chain? x = some d) :
    d.isLive = c.isLive := by
  have hended : d.hasEnded = c.hasEnded := by
    cases hcend : c.hasEnded with
    | true =>
      rw [chain?_of_hasEnded hc hcend] at hd
      cases hd
      exact hcend
    | false =>
      cases hdend : d.hasEnded with
      | false => rfl
      | true =>
        obtain ⟨hmv, o, hs⟩ := leave_of_step hc hd hcend hdend
        exact absurd hs ((h x c hmv hc).2 o)
  rw [Chain.isLive, Chain.isLive, hended, task_step hc hd]

lemma atWork_of_steady (h : m.Steady mv) : (m.step mv).atWork = m.atWork := by
  refine places_step (fun x c d hc hd => isLive_step h hc hd) fun x d hc hd => ?_
  obtain ⟨y, c, t, callee, rfl, hy, hs, -⟩ := launched_of_step hc hd
  exact absurd (granted_of_step hc hd hy hs) ((h y c rfl hy).1 t callee hs)

/-- A task is at work once it has been launched. -/
lemma atWork_grant {callee : Callee} (hc : m.chain? x = some c) (hs : c.stage = .launch t callee) :
    (m.grant x c t callee).atWork = insert m.chains.size m.atWork := by
  have hgrant : (m.grant x c t callee).atWork = ((m.addChain (.ofTask t callee)).2.setChain x
      { c with stage := .enlist ⟨m.chains.size⟩ }).atWork := rfl
  have hx : x.index ≠ m.chains.size := Nat.ne_of_lt (Array.getElem?_eq_some_iff.mp hc).1
  have hsame : ({ c with stage := .enlist ⟨m.chains.size⟩ } : Chain).isLive = c.isLive := by
    rw [Chain.isLive, Chain.isLive, hasEnded_of_stage hs]
    rfl
  ext i
  rw [hgrant, atWork, mem_places_setChain (chain?_addChain_of_some hc _), hsame, mem_places,
    chain?_addChain_eq, Finset.mem_insert]
  split_ifs with hi hnew
  · subst hi
    rw [atWork, mem_places_of_chain hc]
    exact ⟨.inr, fun h => h.resolve_left hx⟩
  · exact ⟨fun _ => .inl hnew, fun _ => ⟨_, rfl, rfl⟩⟩
  · rw [← mem_places]
    exact ⟨.inr, fun h => h.resolve_left hnew⟩

lemma card_atWork_grant {callee : Callee} (hc : m.chain? x = some c)
    (hs : c.stage = .launch t callee) : (m.grant x c t callee).atWork.card = m.atWork.card + 1 := by
  rw [atWork_grant hc hs]
  refine Finset.card_insert_of_notMem fun hmem => ?_
  exact absurd (Finset.mem_range.mp (Finset.mem_filter.mp hmem).1) (Nat.lt_irrefl _)

/-- A task is no longer at work once it has left. -/
lemma atWork_retire {o : Outcome} (hc : m.chain? x = some c) (hs : c.stage = .leave o) :
    (m.step (.run x)).atWork = m.atWork.erase x.index := by
  have hsame : (m.retire c).atWork = m.atWork := places_of_chains (chains_retire m c).1
  have hended : ({ c with stage := .ended o } : Chain).isLive = false := Bool.and_false _
  rw [step_leave hc hs, ← hsame]
  exact places_erase (chain?_retire.trans hc) hended

lemma card_atWork_retire {o : Outcome} (hc : m.chain? x = some c) (hs : c.stage = .leave o) :
    (m.step (.run x)).atWork.card + (if c.task.isSome then 1 else 0) = m.atWork.card := by
  have hlive : x.index ∈ m.atWork ↔ c.task.isSome = true := by
    rw [atWork, mem_places_of_chain hc, Chain.isLive, hasEnded_of_stage hs, Bool.not_false,
      Bool.and_true]
  rw [atWork_retire hc hs]
  split_ifs with htask
  · exact Finset.card_erase_add_one (hlive.mpr htask)
  · rw [Finset.erase_eq_of_notMem fun hmem => htask (hlive.mp hmem), Nat.add_zero]

/-! ### Tasks that could not be started -/

/-- The places of the chains that are about to take back a task whose thread was refused. -/
def withdrawing (m : Machine) : Finset ℕ := m.places Chain.isWithdrawing

/-- A move in which no thread is refused and nothing is taken back. -/
def Unrefused (m : Machine) (mv : Move) : Prop :=
  ∀ x c, mv = .run x → m.chain? x = some c →
    (∀ t callee, c.stage = .launch t callee → m.program.config.refusal? t.index = none) ∧
    ∀ message, c.stage ≠ .withdraw message

lemma unrefused_run (hc : m.chain? x = some c)
    (hl : ∀ t callee, c.stage = .launch t callee → m.program.config.refusal? t.index = none)
    (hw : ∀ message, c.stage ≠ .withdraw message) : m.Unrefused (.run x) := by
  rintro y d ⟨⟩ hd
  cases hc.symm.trans hd
  exact ⟨hl, hw⟩

/-- Besides a chain that launches a task, no chain comes to take one back. -/
lemma isWithdrawing_restaged (hr : m.Restaged c d)
    (hlaunch : ∀ t callee, c.stage ≠ .launch t callee) : d.isWithdrawing = false := by
  cases hr with
  | denied hs => exact absurd hs (hlaunch _ _)
  | sent | awake | enlisted =>
    rw [Chain.proceed]
    split_ifs <;> rfl
  | _ => rfl

lemma isWithdrawing_step (h : m.Unrefused mv) (hc : m.chain? x = some c)
    (hd : (m.step mv).chain? x = some d) : d.isWithdrawing = c.isWithdrawing := by
  by_cases hmv : mv = .run x
  · subst hmv
    obtain ⟨hgranted, hwithdraw⟩ := h x c rfl hc
    rw [Chain.isWithdrawing_of_ne hwithdraw]
    by_cases hlaunch : ∀ t callee, c.stage ≠ .launch t callee
    · cases next_of_step hc hd with
      | same => exact Chain.isWithdrawing_of_ne hwithdraw
      | restaged hr => exact isWithdrawing_restaged hr hlaunch
      | advanced _ ha hr =>
        have honward := (Chain.steps_of_advance ha hr).onward
        refine Chain.isWithdrawing_of_ne fun message hs => ?_
        rw [hs] at honward
        cases honward
      | @stopped _ e _ _ _ _ => cases e <;> rfl
    · simp only [not_forall, not_not] at hlaunch
      obtain ⟨t, callee, hs⟩ := hlaunch
      rw [step_grant hc hs (hgranted t callee hs), chain?_grant,
        chain?_setChain_self (chain?_addChain_of_some hc _)] at hd
      cases hd
      rfl
  · by_cases hbusy : (∃ t callee, c.stage = .launch t callee) ∨
      ∃ message, c.stage = .withdraw message
    · -- a chain at these stages waits for its own turn
      have hstays : (m.step mv).chain? x = some c := by
        rcases hbusy with ⟨t, callee, hs⟩ | ⟨message, hs⟩
        · exact chain?_step_of_stage hmv hc hs
        · exact chain?_step_of_stage hmv hc hs
      rw [hd] at hstays
      cases hstays
      rfl
    · simp only [not_or, not_exists] at hbusy
      rw [Chain.isWithdrawing_of_ne hbusy.2]
      cases next_of_step hc hd with
      | same => exact Chain.isWithdrawing_of_ne hbusy.2
      | restaged hr => exact isWithdrawing_restaged hr hbusy.1
      | advanced hmv' => exact absurd hmv' hmv
      | stopped hmv' => exact absurd hmv' hmv

lemma withdrawing_of_unrefused (h : m.Unrefused mv) : (m.step mv).withdrawing = m.withdrawing := by
  refine places_step (fun x c d hc hd => isWithdrawing_step h hc hd) fun x d hc hd => ?_
  obtain ⟨_, _, _, _, -, -, -, -, rfl⟩ := launched_of_step hc hd
  rfl

/-- A chain that is refused a thread is about to take the task back. -/
lemma card_withdrawing_deny {callee : Callee} {message : String} (hc : m.chain? x = some c)
    (hs : c.stage = .launch t callee) (hr : m.program.config.refusal? t.index = some message) :
    (m.step (.run x)).withdrawing.card = m.withdrawing.card + 1 := by
  have hinsert : (m.step (.run x)).withdrawing = insert x.index m.withdrawing := by
    rw [step_deny hc hs hr]
    exact places_insert (m := m.count) hc rfl
  have hnew : x.index ∉ m.withdrawing := by
    rw [withdrawing, mem_places_of_chain hc, Chain.isWithdrawing, hs]
    exact Bool.false_ne_true
  rw [hinsert, Finset.card_insert_of_notMem hnew]

/-- A chain that has taken a task back is not about to do so again. -/
lemma card_withdrawing_withdraw {message : String} (hc : m.chain? x = some c)
    (hs : c.stage = .withdraw message) :
    (m.step (.run x)).withdrawing.card + 1 = m.withdrawing.card := by
  have herase : (m.step (.run x)).withdrawing = m.withdrawing.erase x.index := by
    simp only [Machine.step, run, hc, hs]
    exact places_erase (m := m.discount) hc rfl
  have hmem : x.index ∈ m.withdrawing := by
    rw [withdrawing, mem_places_of_chain hc, Chain.isWithdrawing, hs]
  rw [herase, Finset.card_erase_add_one hmem]

/-! ### The count -/

/-- The launcher counts the tasks at work, and those that are still to be taken back. -/
def Counts (m : Machine) : Prop := m.launcher.live = m.atWork.card + m.withdrawing.card

lemma Counts.of_steady (h : m.Counts) (hs : m.Steady mv) (hu : m.Unrefused mv)
    (hl : (m.step mv).launcher.live = m.launcher.live) : (m.step mv).Counts := by
  rw [Counts, atWork_of_steady hs, withdrawing_of_unrefused hu, hl, h]

/-- In every move the launcher counts as many tasks more or less as there are. -/
lemma Counts.step (h : m.Counts) (mv : Move) : (m.step mv).Counts := by
  have hbooks := m.bookkeeping_step mv
  generalize hl : (m.step mv).launcher = l at hbooks
  cases hbooks with
  | same hidle =>
    have hnone : ∀ x c, mv = .run x → m.chain? x = some c → ∀ stage, c.stage = stage →
        stage.isBooking = false := fun x c hmv hc stage hs => hs ▸ hidle x c hmv hc
    refine h.of_steady (fun x c hmv hc => ⟨fun t callee hs => ?_, fun o hs => ?_⟩)
      (fun x c hmv hc => ⟨fun t callee hs => ?_, fun message hs => ?_⟩) (by rw [hl])
    all_goals cases hnone x c hmv hc _ hs
  | reserved hc hs | enlisted hc hs | taken hc hs =>
    exact h.of_steady (steady_run hc (by simp [hs]) (by simp [hs]))
      (unrefused_run hc (by simp [hs]) (by simp [hs])) (by rw [hl])
  | recorded hc hs =>
    exact h.of_steady (steady_run hc (by simp [hs]) (by simp [hs]))
      (unrefused_run hc (by simp [hs]) (by simp [hs])) (by rw [hl, live_record])
  | launched hc hs hr =>
    have hunrefused := unrefused_run hc (by rw [hs]; rintro _ _ ⟨⟩; exact hr) (by simp [hs])
    have hatWork := card_atWork_grant hc hs
    rw [← step_grant hc hs hr] at hatWork
    rw [Counts, withdrawing_of_unrefused hunrefused, hatWork, hl, h]
    exact Nat.add_right_comm ..
  | denied hc hs hr =>
    have hsteady := steady_run hc (by rw [hs]; rintro _ _ ⟨⟩; simp [hr]) (by simp [hs])
    rw [Counts, atWork_of_steady hsteady, card_withdrawing_deny hc hs hr, hl, h]
    exact Nat.add_assoc ..
  | withdrawn hc hs =>
    have hsteady := steady_run hc (by simp [hs]) (by simp [hs])
    rw [Counts, atWork_of_steady hsteady, hl, h, ← card_withdrawing_withdraw hc hs]
    rfl
  | @retired x c o hc hs =>
    have hunrefused := unrefused_run hc (by simp [hs]) (by simp [hs])
    rw [Counts, withdrawing_of_unrefused hunrefused, hl, retire_launcher, h,
      ← card_atWork_retire hc hs]
    dsimp only
    split_ifs <;> omega

/-- A chain that a host begins takes nothing back. -/
lemma withdrawing_addChain (hc : c.Hosted) : (m.addChain c).2.withdrawing = m.withdrawing :=
  places_addChain (by cases hc <;> rfl)

lemma Counts.addChain (h : m.Counts) (hc : c.Hosted) : (m.addChain c).2.Counts := by
  have hlive : c.isLive = false := by
    rw [Chain.isLive, task_hosted hc]
    rfl
  rw [Counts, atWork, places_addChain hlive, withdrawing_addChain hc]
  exact h

/-! ### Numbers of tasks that could not be started -/

/-- The number of the task that is refused a thread in a move. -/
def refusals (m : Machine) : Move → List TaskId
  | .run x => (m.denied? x).toList
  | _ => []

/-- The number of a task that is refused a thread was in use. -/
lemma holds_of_refusal (h : t ∈ m.refusals mv) : ∃ x c, m.chain? x = some c ∧ c.Holds t := by
  cases mv with
  | pass | seeClosed => cases h
  | run x =>
    obtain ⟨c, callee, hc, hs, -⟩ := denied?_eq_some.mp (Option.mem_toList.mp h)
    exact ⟨x, c, hc, .inr ⟨callee, hs⟩⟩

lemma nodup_refusals (m : Machine) (mv : Move) : (m.refusals mv).Nodup := by
  cases mv with
  | pass | seeClosed => exact .nil
  | run x => exact Option.toList_nodup _

lemma refusals_eq_nil (h : m.program.config.Grants) (mv : Move) : m.refusals mv = [] := by
  refine List.eq_nil_iff_forall_not_mem.mpr fun t ht => ?_
  cases mv with
  | pass | seeClosed => cases ht
  | run x =>
    obtain ⟨_, _, -, -, hr⟩ := denied?_eq_some.mp (Option.mem_toList.mp ht)
    exact hr (h t.index)

/-- No chain has the number of a task that was just refused a thread. -/
lemma Accounted.not_holds_refused (h : m.Accounted 0 0 taken) (ht : t ∈ m.refusals mv)
    (hd : (m.step mv).chain? y = some d) : ¬d.Holds t := by
  intro hholds
  cases mv with
  | pass | seeClosed => cases ht
  | run x =>
    obtain ⟨c, callee, hc, hs, hr⟩ := denied?_eq_some.mp (Option.mem_toList.mp ht)
    obtain ⟨message, hr⟩ := Option.ne_none_iff_exists'.mp hr
    have hid : m.Since 0 x c := ⟨Nat.zero_le _, hc⟩
    rw [step_deny hc hs hr] at hd
    by_cases hy : y = x
    · subst hy
      cases hd.symm.trans (chain?_setChain_self (m := m.count) hc)
      rcases hholds with ht | ⟨callee', ht⟩
      · exact h.apart y c t callee hid hs ht
      · cases ht
    · have hold : m.chain? y = some d := (chain?_setChain_of_ne (m := m.count) hy).symm.trans hd
      exact hy (h.unique y x d c t ⟨Nat.zero_le _, hold⟩ hid hholds (.inr ⟨callee, hs⟩))

/-- No more chains are about to take a task back than were refused a thread. -/
lemma card_withdrawing_step (m : Machine) (mv : Move) :
    (m.step mv).withdrawing.card ≤ m.withdrawing.card + (m.refusals mv).length := by
  by_cases h : m.Unrefused mv
  · rw [withdrawing_of_unrefused h]
    exact Nat.le_add_right ..
  · simp only [Unrefused, not_forall] at h
    obtain ⟨x, c, rfl, hc, h⟩ := h
    rw [not_and_or] at h
    simp only [not_forall, not_not] at h
    rcases h with ⟨t, callee, hs, hr⟩ | ⟨message, hs⟩
    · have hdenied : m.denied? x = some t := denied?_eq_some.mpr ⟨c, callee, hc, hs, hr⟩
      obtain ⟨message, hr⟩ := Option.ne_none_iff_exists'.mp hr
      rw [refusals, hdenied, card_withdrawing_deny hc hs hr]
      exact Nat.le_refl _
    · have hone := card_withdrawing_withdraw hc hs
      omega

/-- Some tasks were refused a thread, each once. No chain has their numbers, which are used up, and
no more chains than these are about to take a task back. -/
structure Unstarted (ts : List TaskId) (m : Machine) : Prop where
  below : ∀ t ∈ ts, t.index < m.launcher.started
  unused : ∀ t ∈ ts, ∀ x c, m.chain? x = some c → ¬c.Holds t
  once : ts.Nodup
  withdrawing : m.withdrawing.card ≤ ts.length

namespace Unstarted

variable {ts : List TaskId} (h : m.Unstarted ts)

include h

lemma step (haccounted : m.Accounted 0 0 taken) (mv : Move) :
    (m.step mv).Unstarted (ts ++ m.refusals mv) where
  below t ht := by
    refine Nat.lt_of_lt_of_le ?_ (m.started_le_step mv)
    rcases List.mem_append.mp ht with ht | ht
    · exact h.below t ht
    · obtain ⟨x, c, hc, hholds⟩ := holds_of_refusal ht
      exact (haccounted.numbered x c t ⟨Nat.zero_le _, hc⟩ hholds).2
  unused t ht x d hd hholds := by
    rcases List.mem_append.mp ht with ht | ht
    · rcases haccounted.of_holds_step ⟨Nat.zero_le _, hd⟩ hholds with ⟨y, c, hc, hc'⟩ | rfl
      · exact h.unused t ht y c hc.2 hc'
      · exact Nat.lt_irrefl _ (h.below _ ht)
    · exact haccounted.not_holds_refused ht hd hholds
  once := by
    refine List.nodup_append.mpr ⟨h.once, nodup_refusals m mv, ?_⟩
    rintro t ht t' ht' rfl
    obtain ⟨x, c, hc, hholds⟩ := holds_of_refusal ht'
    exact h.unused t ht x c hc hholds
  withdrawing := by
    rw [List.length_append]
    exact Nat.le_trans (m.card_withdrawing_step mv) (Nat.add_le_add_right h.withdrawing _)

lemma addChain (hc : c.Hosted) : (m.addChain c).2.Unstarted ts where
  below := h.below
  unused t ht x d hd hholds := by
    rw [chain?_addChain_eq] at hd
    split_ifs at hd
    · cases hd
      exact not_holds_hosted hc hholds
    · exact h.unused t ht x d hd hholds
  once := h.once
  withdrawing := by
    rw [withdrawing_addChain hc]
    exact h.withdrawing

end Unstarted

end Machine

end Flowgraph
