import Flowgraph.Proofs.Scope.Layout
import Flowgraph.Proofs.Tasks.Counts

/-!
# Exact accounts

A host that writes down which numbers are given to tasks, which of them are refused a thread, which
faults tasks come to their ends with, and what it is handed whenever it takes the recorded faults,
finds that all of this agrees with the launcher, however chains move.
-/

namespace Flowgraph

/-- A chain was aborted, and has reported it. -/
def Chain.Aborted (c : Chain) (e : Stop) : Prop :=
  c.stage = .leave (.error e) ∨ c.stage = .ended (.error e)

/-! ### The ledger -/

/-- What a host writes down. -/
structure Ledger where
  /-- The numbers that were given to tasks, in the order in which they were given. -/
  numbers : List TaskId := []
  /-- Those of these numbers whose tasks were refused a thread, in that order. -/
  refused : List TaskId := []
  /-- The faults with which tasks have come to their ends, in that order. -/
  records : List (TaskId × Fault) := []
  /-- What the host was handed each time it took the recorded faults. -/
  drains : List (List (TaskId × Fault)) := []

namespace Machine

variable {m start : Machine} {x y : ChainId} {c d : Chain} {mv : Move} {t : TaskId} {l : Ledger}

/-- The number that a chain which is about to spawn is given in a move. -/
def given (m : Machine) : Move → List TaskId
  | .run x =>
    match (m.chain? x).map Chain.stage, ((m.step (.run x)).chain? x).map Chain.stage with
    | some (.spawn _), some (.launch t _) => [t]
    | _, _ => []
  | _ => []

/-- The fault with which a task that was aborted leaves in a move. -/
def reports (m : Machine) : Move → List (TaskId × Fault)
  | .run x =>
    match m.chain? x with
    | some ⟨some t, _, .exit (.error e)⟩ => e.recorded?.toList.map fun f => (t, f)
    | _ => []
  | _ => []

/-- Write down what happens in a move. -/
def entered (m : Machine) (mv : Move) (l : Ledger) : Ledger :=
  { l with
    numbers := l.numbers ++ m.given mv
    refused := l.refused ++ m.refusals mv
    records := l.records ++ m.reports mv }

/-- What a host has written down when a machine has become another one. Besides beginning chains,
the host may change the store and take the recorded faults, at any time. -/
inductive Logs (start : Machine) : Ledger → Machine → Prop
  | start : Logs start {} start
  | move {l : Ledger} {m : Machine} (h : Logs start l m) (mv : Move) :
    Logs start (m.entered mv l) (m.step mv)
  | host {l : Ledger} {m : Machine} {c : Chain} (h : Logs start l m) (hc : c.Hosted) :
    Logs start l (m.addChain c).2
  | change {l : Ledger} {m : Machine} (h : Logs start l m) (s : Store) :
    Logs start l { m with store := s }
  | drain {l : Ledger} {m : Machine} (h : Logs start l m) :
    Logs start { l with drains := l.drains ++ [m.takeFaults.1] } m.takeFaults.2

/-- Write down what happens in some moves, one after the other. -/
def enteredAll : List Move → Machine → Ledger → Ledger
  | [], _, l => l
  | mv :: moves, m, l => enteredAll moves (m.step mv) (m.entered mv l)

lemma Logs.moves (h : Logs start l m) (moves : List Move) :
    Logs start (enteredAll moves m l) (moves.foldl step m) := by
  induction moves generalizing l m with
  | nil => exact h
  | cons mv moves ih => exact ih (h.move mv)

/-! ### Numbers -/

lemma given_of_spawn {callee : Callee} (hc : m.chain? x = some c) (hs : c.stage = .spawn callee) :
    m.given (.run x) = [⟨m.launcher.started⟩] := by
  have hnext : (m.step (.run x)).chain? x =
      some { c with stage := .launch ⟨m.launcher.started⟩ callee } := by
    simp only [step, run, hc, hs]
    exact chain?_setChain_self (c := c) hc
  simp only [given, hc, hnext, Option.map_some, hs]

lemma given_eq_nil (h : ∀ x c, mv = .run x → m.chain? x = some c → ∀ callee,
    c.stage ≠ .spawn callee) :
    m.given mv = [] := by
  cases mv with
  | pass | seeClosed => rfl
  | run x =>
    simp only [given]
    split
    case h_1 callee t _ hs hs' =>
      obtain ⟨c, hc, hs⟩ := Option.map_eq_some_iff.mp hs
      exact absurd hs (h x c rfl hc callee)
    case h_2 => rfl

/-- The next number is given out, or none is. -/
lemma given_step (m : Machine) (mv : Move) :
    m.given mv = [] ∧ (m.step mv).launcher.started = m.launcher.started ∨
      m.given mv = [⟨m.launcher.started⟩] ∧
        (m.step mv).launcher.started = m.launcher.started + 1 := by
  have hbooks := m.bookkeeping_step mv
  -- a chain at another stage is not about to spawn
  have hnone : ∀ {x c}, m.chain? x = some c → (∀ callee, c.stage ≠ .spawn callee) →
      m.given (.run x) = [] := by
    intro x c hc hs
    apply given_eq_nil
    rintro y d ⟨⟩ hd
    cases hc.symm.trans hd
    exact hs
  generalize (m.step mv).launcher = launcher at hbooks
  cases hbooks with
  | reserved hc hs => exact .inr ⟨given_of_spawn hc hs, rfl⟩
  | same hidle =>
    refine .inl ⟨given_eq_nil fun x c hmv hc callee hs => ?_, rfl⟩
    have hbooking := hidle x c hmv hc
    rw [hs] at hbooking
    cases hbooking
  | launched hc hs | denied hc hs | withdrawn hc hs | enlisted hc hs | taken hc hs =>
    exact .inl ⟨hnone hc (by simp [hs]), rfl⟩
  | recorded hc hs => exact .inl ⟨hnone hc (by simp [hs]), started_record ..⟩
  | retired hc hs => exact .inl ⟨hnone hc (by simp [hs]), by rw [retire_launcher]⟩

/-- A number that is given out is in use. -/
lemma holds_of_given (h : t ∈ m.given mv) :
    ∃ x d, (m.step mv).chain? x = some d ∧ d.Holds t := by
  cases mv with
  | pass | seeClosed => cases h
  | run x =>
    simp only [given] at h
    split at h
    case h_1 callee t' callee' hs hs' =>
      obtain ⟨d, hd, hs'⟩ := Option.map_eq_some_iff.mp hs'
      rw [List.mem_singleton.mp h]
      exact ⟨x, d, hd, .inr ⟨callee', hs'⟩⟩
    case h_2 => cases h

/-- A number that is in use stays in use, unless its task is refused a thread. -/
lemma holds_step (hc : m.chain? x = some c) (h : c.Holds t) (mv : Move) :
    (∃ y d, (m.step mv).chain? y = some d ∧ d.Holds t) ∨ t ∈ m.refusals mv := by
  rcases h with ht | ⟨callee, hs⟩
  · obtain ⟨d, hd⟩ := exists_chain?_step ⟨c, hc⟩ mv
    exact .inl ⟨x, d, hd, .inl ((task_step hc hd).trans ht)⟩
  · by_cases hmv : mv = .run x
    · subst hmv
      by_cases hr : m.program.config.refusal? t.index = none
      · -- the number passes to the task
        refine .inl ⟨⟨m.chains.size⟩, .ofTask t callee, ?_, .inl rfl⟩
        have hx : (⟨m.chains.size⟩ : ChainId) ≠ x := by
          rintro rfl
          exact Nat.lt_irrefl _ (Array.getElem?_eq_some_iff.mp hc).1
        rw [step_grant hc hs hr, chain?_grant, chain?_setChain_of_ne hx, chain?_addChain_eq,
          if_pos rfl]
      · exact .inr (Option.mem_toList.mpr (denied?_eq_some.mpr ⟨c, callee, hc, hs, hr⟩))
    · exact .inl ⟨x, c, chain?_step_of_stage hmv hc hs, .inr ⟨callee, hs⟩⟩

/-! ### Records -/

lemma reports_of_exit {o : Outcome} (hc : m.chain? x = some c) (hs : c.stage = .exit o) :
    (m.record c o).launcher.faults = m.launcher.faults ++ m.reports (.run x) := by
  obtain ⟨task, walks, stage⟩ := c
  cases hs
  cases task <;> cases o <;> simp [reports, record, hc]

lemma reports_eq_nil (h : ∀ x c, mv = .run x → m.chain? x = some c → ∀ o, c.stage ≠ .exit o) :
    m.reports mv = [] := by
  cases mv with
  | pass | seeClosed => rfl
  | run x =>
    simp only [reports]
    split
    case h_1 hc => exact absurd rfl (h x _ rfl hc _)
    case h_2 => rfl

/-- What is recorded in a move is what the task reports. -/
lemma faults_step (m : Machine) (mv : Move) :
    (m.step mv).launcher.faults = m.launcher.faults ++ m.reports mv := by
  have hbooks := m.bookkeeping_step mv
  -- a chain at another stage does not report
  have hnone : ∀ {x c}, m.chain? x = some c → (∀ o, c.stage ≠ .exit o) →
      m.launcher.faults = m.launcher.faults ++ m.reports (.run x) := by
    intro x c hc hs
    rw [reports_eq_nil, List.append_nil]
    rintro y d ⟨⟩ hd
    cases hc.symm.trans hd
    exact hs
  generalize (m.step mv).launcher = launcher at hbooks
  cases hbooks with
  | recorded hc hs => exact reports_of_exit hc hs
  | same hidle =>
    rw [reports_eq_nil, List.append_nil]
    intro x c hmv hc o hs
    have hbooking := hidle x c hmv hc
    rw [hs] at hbooking
    cases hbooking
  | reserved hc hs | launched hc hs | denied hc hs | withdrawn hc hs | enlisted hc hs
  | taken hc hs => exact hnone hc (by simp [hs])
  | retired hc hs =>
    rw [retire_launcher]
    exact hnone hc (by simp [hs])

/-- No task leaves without a fault or results. -/
lemma stop?_step (h : ∀ x c, m.chain? x = some c → c.stop? ≠ some .endless) (mv : Move) :
    ∀ x c, (m.step mv).chain? x = some c → c.stop? ≠ some .endless := by
  intro x d hd hstop
  cases hc : m.chain? x with
  | none =>
    obtain ⟨_, _, _, _, -, -, -, -, rfl⟩ := launched_of_step hc hd
    cases hstop
  | some c =>
    rcases raises_of_stop? hc hd hstop with hold | ⟨s, hr⟩
    · exact h x c hc hold
    · -- what never comes to its end does not bring the chain to its end
      rw [step_of_raises hc hr, chain?_setChain_self (by exact hc)] at hd
      cases hd
      cases hstop

/-! ### Agreement -/

/-- A ledger agrees with the launcher of a machine. -/
structure Agrees (l : Ledger) (m : Machine) : Prop where
  accounted : m.Accounted 0 0 l.drains.flatten
  counts : m.Counts
  numbers : l.numbers = (List.range m.launcher.started).map TaskId.mk
  held : ∀ n < m.launcher.started,
    (∃ x c, m.chain? x = some c ∧ c.Holds ⟨n⟩) ∨ ⟨n⟩ ∈ l.refused
  unstarted : m.Unstarted l.refused
  returned : l.drains.flatten ++ m.launcher.faults = l.records
  stops : ∀ x c, m.chain? x = some c → c.stop? ≠ some .endless

namespace Agrees

lemma step (h : m.Agrees l) (mv : Move) : (m.step mv).Agrees (m.entered mv l) where
  accounted := h.accounted.step mv
  counts := h.counts.step mv
  numbers := by
    have hnumbers := h.numbers
    rcases m.given_step mv with ⟨hg, hs⟩ | ⟨hg, hs⟩
    · simp only [entered, hg, hs, hnumbers, List.append_nil]
    · simp only [entered, hg, hs, hnumbers, List.range_succ, List.map_append, List.map_singleton]
  held n hn := by
    have hold : n < m.launcher.started →
        (∃ x d, (m.step mv).chain? x = some d ∧ d.Holds ⟨n⟩) ∨
          ⟨n⟩ ∈ l.refused ++ m.refusals mv := by
      intro hn
      rcases h.held n hn with ⟨x, c, hc, ht⟩ | hr
      · exact (holds_step hc ht mv).imp_right (List.mem_append_right _)
      · exact .inr (List.mem_append_left _ hr)
    rcases m.given_step mv with ⟨-, hs⟩ | ⟨hg, hs⟩
    · exact hold (hs ▸ hn)
    · rw [hs] at hn
      rcases Nat.lt_succ_iff_lt_or_eq.mp hn with hn | rfl
      · exact hold hn
      · exact .inl (holds_of_given (by rw [hg]; exact List.mem_singleton_self _))
  unstarted := h.unstarted.step h.accounted mv
  returned := by
    have hrecords : (m.entered mv l).records = l.records ++ m.reports mv := rfl
    rw [faults_step, ← List.append_assoc, hrecords, ← h.returned]
    rfl
  stops := stop?_step h.stops mv

lemma addChain (h : m.Agrees l) (hc : c.Hosted) : (m.addChain c).2.Agrees l where
  accounted := h.accounted.addChain hc
  counts := h.counts.addChain hc
  numbers := h.numbers
  held n hn := (h.held n hn).imp_left fun ⟨x, d, hd, ht⟩ =>
    ⟨x, d, chain?_addChain_of_some hd c, ht⟩
  unstarted := h.unstarted.addChain hc
  returned := h.returned
  stops x d hd := by
    rw [chain?_addChain_eq] at hd
    split_ifs at hd
    · cases hd
      cases hc <;> exact fun hstop => by cases hstop
    · exact h.stops x d hd

/-- Tasks do not depend on what a host makes of the store. -/
lemma change (h : m.Agrees l) (s : Store) : Agrees l { m with store := s } where
  accounted := ⟨h.accounted.size, h.accounted.enough, h.accounted.before, h.accounted.numbered,
    h.accounted.unique, h.accounted.apart, h.accounted.recorded, h.accounted.known⟩
  counts := h.counts
  numbers := h.numbers
  held := h.held
  unstarted := ⟨h.unstarted.below, h.unstarted.unused, h.unstarted.once, h.unstarted.withdrawing⟩
  returned := h.returned
  stops := h.stops

lemma drain (h : m.Agrees l) :
    m.takeFaults.2.Agrees { l with drains := l.drains ++ [m.takeFaults.1] } where
  accounted := by
    have hflat : (l.drains ++ [m.takeFaults.1]).flatten = l.drains.flatten ++ m.takeFaults.1 := by
      rw [List.flatten_append, List.flatten_singleton]
    exact hflat ▸ h.accounted.takeFaults
  counts := h.counts
  numbers := h.numbers
  held := h.held
  unstarted := ⟨h.unstarted.below, h.unstarted.unused, h.unstarted.once, h.unstarted.withdrawing⟩
  returned := by
    have hnone : m.takeFaults.2.launcher.faults = [] := rfl
    rw [hnone, List.append_nil, List.flatten_append, List.flatten_singleton]
    exact h.returned
  stops := h.stops

end Agrees

/-- Whatever a host does, what it writes down agrees with the launcher. -/
theorem Logs.agrees {graph : Graph} {natives : Registry} {config : Config} {kept : Bool}
    (hload : Machine.load graph natives config kept = .ok start) (h : Logs start l m) :
    m.Agrees l := by
  induction h with
  | start =>
    obtain ⟨p, -, rfl⟩ := Machine.of_load hload
    have hnone : ∀ x, (ofProgram p kept).chain? x = none := fun x => Array.getElem?_empty
    exact {
      accounted := accounted_of_ended (m := ofProgram p kept)
        (fun x c hc => by rw [hnone] at hc; cases hc) fun _ hr => absurd hr List.not_mem_nil
      counts := rfl
      numbers := rfl
      held := fun n hn => absurd hn (Nat.not_lt_zero n)
      unstarted := ⟨fun t ht => absurd ht List.not_mem_nil, fun t ht => absurd ht List.not_mem_nil,
        .nil, Nat.le_refl 0⟩
      returned := rfl
      stops := fun x c hc => by rw [hnone] at hc; cases hc }
  | move _ mv ih => exact ih.step mv
  | host _ hc ih => exact ih.addChain hc
  | change _ s ih => exact ih.change s
  | drain _ ih => exact ih.drain

/-! ### Exact accounts -/

/-- The account of tasks is exact. -/
structure Exact (l : Ledger) (m : Machine) : Prop where
  /-- Numbers are given out one after the other, and the launcher knows how many. -/
  numbers : l.numbers = (List.range m.launcher.started).map TaskId.mk
  /-- A number that was given out is in use, by a task that has it or by a chain that is about to
  launch that task, or the task was refused a thread. -/
  held : ∀ t, t ∈ l.numbers ↔ (∃ x c, m.chain? x = some c ∧ c.Holds t) ∨ t ∈ l.refused
  /-- There is no task that was refused a thread, and none is refused one twice. -/
  refused : (∀ t ∈ l.refused, ∀ x c, m.chain? x = some c → ¬c.Holds t) ∧ l.refused.Nodup
  /-- No number is in use twice. -/
  unique : ∀ x y c d t, m.chain? x = some c → m.chain? y = some d → c.Holds t → d.Holds t → x = y
  /-- The launcher counts the tasks that have been launched and have not come to their ends, and
  those that were refused a thread, until this has been taken back. -/
  live : m.launcher.live = m.atWork.card + m.withdrawing.card ∧
    m.withdrawing.card ≤ l.refused.length
  /-- If no task was refused a thread, all numbers are in use, and the launcher counts only tasks
  that have been launched and have not come to their ends. -/
  granted : l.refused = [] → (∀ t, t ∈ l.numbers ↔ ∃ x c, m.chain? x = some c ∧ c.Holds t) ∧
    m.launcher.live = m.atWork.card
  /-- What was recorded has been handed to the host once, or is still there. -/
  returned : l.drains.flatten ++ m.launcher.faults = l.records
  /-- Of a task that was aborted one fault is recorded, under its own number. -/
  aborted : ∀ x c t e, m.chain? x = some c → c.task = some t → c.Aborted e →
    ∃ f, e.recorded? = some f ∧ faultsUnder l.records t = [f]
  /-- Under no other number anything is recorded. -/
  spared : ∀ t, (∀ x c e, m.chain? x = some c → c.task = some t → ¬c.Aborted e) →
    faultsUnder l.records t = []
  /-- When the launcher counts no task, all tasks that were launched have come to their ends. -/
  settled : m.launcher.live = 0 → ∀ x c t, m.chain? x = some c → c.task = some t →
    ∃ o, c.stage = .ended o

namespace Agrees

variable (h : m.Agrees l)

include h

lemma faultsUnder_records (t : TaskId) :
    faultsUnder l.records t = faultsUnder l.drains.flatten t ++ m.launcher.faultsOf t := by
  rw [← h.returned]
  exact List.filterMap_append

lemma exists_recorded (hc : m.chain? x = some c) {e : Stop} (he : c.stop? = some e) :
    ∃ f, e.recorded? = some f := by
  cases e with
  | fault f => exact ⟨f, rfl⟩
  | panic text => exact ⟨_, rfl⟩
  | endless => exact absurd he (h.stops x c hc)

lemma aborted {e : Stop} (hc : m.chain? x = some c) (ht : c.task = some t) (he : c.Aborted e) :
    ∃ f, e.recorded? = some f ∧ faultsUnder l.records t = [f] := by
  have hstop : c.stop? = some e := by rcases he with hs | hs <;> rw [Chain.stop?, hs]
  have hreported : c.reported = e.recorded?.toList := by
    rcases he with hs | hs <;> rw [Chain.reported, hs]
  obtain ⟨f, hf⟩ := h.exists_recorded hc hstop
  refine ⟨f, hf, ?_⟩
  rw [h.faultsUnder_records, h.accounted.recorded x c t ⟨Nat.zero_le _, hc⟩ ht, hreported, hf]
  rfl

lemma spared (hnone : ∀ x c e, m.chain? x = some c → c.task = some t → ¬c.Aborted e) :
    faultsUnder l.records t = [] := by
  rw [h.faultsUnder_records]
  by_cases htask : ∃ x c, m.chain? x = some c ∧ c.task = some t
  · obtain ⟨x, c, hc, ht⟩ := htask
    rw [h.accounted.recorded x c t ⟨Nat.zero_le _, hc⟩ ht, Chain.reported]
    split
    case h_1 e hs => exact absurd (.inl hs) (hnone x c e hc ht)
    case h_2 e hs => exact absurd (.inr hs) (hnone x c e hc ht)
    case h_3 => rfl
  · exact h.accounted.faultsOf_eq_nil (Nat.zero_le _) fun x c hc ht => htask ⟨x, c, hc.2, ht⟩

lemma settled (hlive : m.launcher.live = 0) (hc : m.chain? x = some c) (ht : c.task = some t) :
    ∃ o, c.stage = .ended o := by
  have hempty : m.atWork = ∅ :=
    Finset.card_eq_zero.mp (Nat.add_eq_zero_iff.mp (h.counts.symm.trans hlive)).1
  apply stage_of_hasEnded
  by_contra hended
  have hmem : x.index ∈ m.atWork := by
    refine (mem_places_of_chain hc).mpr ?_
    rw [Chain.isLive, ht, Bool.eq_false_iff.mpr hended]
    rfl
  rw [hempty] at hmem
  exact absurd hmem (Finset.notMem_empty _)

lemma mem_numbers :
    t ∈ l.numbers ↔ (∃ x c, m.chain? x = some c ∧ c.Holds t) ∨ t ∈ l.refused := by
  rw [h.numbers, List.mem_map]
  constructor
  · rintro ⟨n, hn, rfl⟩
    exact h.held n (List.mem_range.mp hn)
  · rintro (⟨x, c, hc, ht⟩ | ht)
    · exact ⟨t.index, List.mem_range.mpr (h.accounted.numbered x c t ⟨Nat.zero_le _, hc⟩ ht).2, rfl⟩
    · exact ⟨t.index, List.mem_range.mpr (h.unstarted.below t ht), rfl⟩

lemma granted (hnone : l.refused = []) :
    (∀ t, t ∈ l.numbers ↔ ∃ x c, m.chain? x = some c ∧ c.Holds t) ∧
      m.launcher.live = m.atWork.card := by
  constructor
  · intro t
    rw [h.mem_numbers, hnone, or_iff_left List.not_mem_nil]
  · have hwithdrawing : m.withdrawing.card ≤ 0 := by
      simpa only [hnone, List.length_nil] using h.unstarted.withdrawing
    rw [h.counts, Nat.le_zero.mp hwithdrawing, Nat.add_zero]

end Agrees

lemma Logs.program (h : Logs start l m) : m.program = start.program := by
  induction h with
  | start => rfl
  | move _ mv ih => exact (program_step _ mv).trans ih
  | host _ _ ih | change _ _ ih | drain _ ih => exact ih

/-- If the system starts every thread that it is asked for, no task is refused one. -/
lemma Logs.refused_eq_nil (hgrants : start.program.config.Grants) (h : Logs start l m) :
    l.refused = [] := by
  induction h with
  | start => rfl
  | move h mv ih =>
    rw [entered, ih, refusals_eq_nil (h.program ▸ hgrants), List.append_nil]
  | host _ _ ih | change _ _ ih | drain _ ih => exact ih

/-- Whatever hosts and tasks do, and however chains move: numbers are given out one after the other,
the launcher counts the tasks at work, apart from those that were just refused a thread, and of each
task that was aborted one fault is recorded, which is handed to the host once. No task is refused a
thread if the system starts every thread that it is asked for. -/
theorem tasks_accounted {graph : Graph} {natives : Registry} {config : Config} {kept : Bool}
    (hload : Machine.load graph natives config kept = .ok start) (h : Logs start l m) :
    m.Exact l ∧ (config.Grants → l.refused = []) := by
  have hagrees := h.agrees hload
  have hexact : m.Exact l := {
    numbers := hagrees.numbers
    held := fun t => hagrees.mem_numbers
    refused := ⟨hagrees.unstarted.unused, hagrees.unstarted.once⟩
    unique := fun x y c d t hc hd ht ht' =>
      hagrees.accounted.unique x y c d t ⟨Nat.zero_le _, hc⟩ ⟨Nat.zero_le _, hd⟩ ht ht'
    live := ⟨hagrees.counts, hagrees.unstarted.withdrawing⟩
    granted := hagrees.granted
    returned := hagrees.returned
    aborted := fun x c t e hc ht he => hagrees.aborted hc ht he
    spared := fun t hnone => hagrees.spared hnone
    settled := fun hlive x c t hc ht => hagrees.settled hlive hc ht }
  refine ⟨hexact, fun hgrants => h.refused_eq_nil ?_⟩
  obtain ⟨p, hp, rfl⟩ := Machine.of_load hload
  exact Program.config_of_load hp ▸ hgrants

/-- A task that spawns another one, which divides by zero. -/
def nestedTasks : Graph where
  nodes := #[
    { kind := .funcDecl,
      payload := some (.definition { name := "outer", entry := some ⟨4⟩ }) },
    { kind := .funcDecl,
      payload := some (.definition { name := "divide", frameSize := 1, entry := some ⟨5⟩ }) },
    { kind := .ident, payload := some (.func ⟨0⟩) },
    { kind := .ident, payload := some (.func ⟨1⟩) },
    { kind := .spawn, children := [⟨3⟩] },
    { kind := .binary .quo, children := [⟨6⟩, ⟨7⟩], slot := some 0 },
    { kind := .basicLit, payload := some (.literal (.int 1)) },
    { kind := .basicLit, payload := some (.literal (.int 0)) },
    { kind := .spawn, children := [⟨2⟩] }]

/-- The system refuses the first thread that it is asked for. -/
def firstRefused : Config where
  answer? _ number := if number = 0 then some "Resource temporarily unavailable" else none

/-- Moves of a host's chain until it has come to its end, because its task was refused a thread. -/
def refusing : List Move := [0, 0, 0, 0, 0, 0, 0].map fun x => .run ⟨x⟩

/-- Moves until the inner task has reported its fault. -/
def reporting : List Move := [1, 1, 1, 2, 2, 2, 2, 3, 3, 3].map fun x => .run ⟨x⟩

/-- Moves until both tasks have come to their ends. -/
def leaving : List Move := [2, 3, 2, 2, 2, 2, 2].map fun x => .run ⟨x⟩

/-- The first task is refused a thread: the chain that wanted it is aborted, and the number stays
used. The host takes the fault of the inner task while both others are at work, and finds nothing
more when they have ended. -/
theorem tasks_accounted_nested : ∃ start l m,
    Machine.load nestedTasks .empty firstRefused true = .ok start ∧ Logs start l m ∧ m.Exact l ∧
      l.numbers = [⟨0⟩, ⟨1⟩, ⟨2⟩] ∧ l.refused = [⟨0⟩] ∧
        (m.chain? ⟨0⟩).bind Chain.outcome? =
          some (.error (.fault (.spawn "Resource temporarily unavailable"))) ∧
        l.drains = [[(⟨2⟩, .divisionByZero)], []] ∧ m.launcher.live = 0 := by
  obtain ⟨start, hload⟩ :
    ∃ start, Machine.load nestedTasks .empty firstRefused true = .ok start := ⟨_, rfl⟩
  have hrefused : Logs start _ _ := (Logs.start.host (.atNode ⟨8⟩)).moves refusing
  have hlogs : Logs start _ _ :=
    (((hrefused.host (.atNode ⟨8⟩)).moves reporting).drain.moves leaving).drain
  refine ⟨start, _, _, hload, hlogs, (tasks_accounted hload hlogs).1, ?_⟩
  cases hload
  exact ⟨rfl, rfl, rfl, rfl, rfl⟩

end Machine

end Flowgraph
