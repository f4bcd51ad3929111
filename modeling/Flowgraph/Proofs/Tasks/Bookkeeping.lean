import Mathlib.Tactic.Common
import Flowgraph.Proofs.Locality

/-!
# What moves change about the launcher

The launcher is changed by chains that are there to do so, each in one way: by those that spawn,
launch or enlist a task, that take back a task which could not be launched, that take the tasks to
be joined, or that come to their ends. All other moves leave it alone.
-/

namespace Flowgraph

/-- Whether a chain is about to have something booked. -/
def Stage.isBooking : Stage → Bool
  | .spawn _ | .launch _ _ | .withdraw _ | .enlist _ | .join [] | .exit _ | .leave _ => true
  | _ => false

namespace Machine

variable {m : Machine} {mv : Move} {x : ChainId} {c : Chain}

/-- The number of the task that a chain is about to launch, if its thread will be refused. -/
def denied? (m : Machine) (x : ChainId) : Option TaskId :=
  match (m.chain? x).map Chain.stage with
  | some (.launch t _) => if m.program.config.refusal? t.index = none then none else some t
  | _ => none

lemma denied?_eq_some {t : TaskId} : m.denied? x = some t ↔ ∃ c callee, m.chain? x = some c ∧
    c.stage = .launch t callee ∧ m.program.config.refusal? t.index ≠ none := by
  constructor
  · intro h
    rw [denied?] at h
    split at h
    case h_1 t' callee hs =>
      obtain ⟨c, hc, hs⟩ := Option.map_eq_some_iff.mp hs
      split_ifs at h with hr
      cases h
      exact ⟨c, callee, hc, hs, hr⟩
    case h_2 => cases h
  · rintro ⟨c, callee, hc, hs, hr⟩
    rw [denied?, hc, Option.map_some, hs]
    exact if_neg hr

/-- What a move makes of the launcher. -/
inductive Bookkeeping (m : Machine) : Move → Launcher → Prop
  | same {mv : Move} (h : ∀ x c, mv = .run x → m.chain? x = some c → c.stage.isBooking = false) :
    Bookkeeping m mv m.launcher
  | reserved {x : ChainId} {c : Chain} {callee : Callee} (hc : m.chain? x = some c)
    (hs : c.stage = .spawn callee) :
    Bookkeeping m (.run x) { m.launcher with started := m.launcher.started + 1 }
  | launched {x : ChainId} {c : Chain} {t : TaskId} {callee : Callee} (hc : m.chain? x = some c)
    (hs : c.stage = .launch t callee) (hr : m.program.config.refusal? t.index = none) :
    Bookkeeping m (.run x) { m.launcher with live := m.launcher.live + 1 }
  | denied {x : ChainId} {c : Chain} {t : TaskId} {callee : Callee} {message : String}
    (hc : m.chain? x = some c) (hs : c.stage = .launch t callee)
    (hr : m.program.config.refusal? t.index = some message) :
    Bookkeeping m (.run x) { m.launcher with live := m.launcher.live + 1 }
  | withdrawn {x : ChainId} {c : Chain} {message : String} (hc : m.chain? x = some c)
    (hs : c.stage = .withdraw message) :
    Bookkeeping m (.run x) { m.launcher with live := m.launcher.live - 1 }
  | enlisted {x child : ChainId} {c : Chain} (hc : m.chain? x = some c)
    (hs : c.stage = .enlist child) : Bookkeeping m (.run x) { m.launcher with
      handles := (m.launcher.handles.filter fun h => !m.hasEnded h) ++ [child] }
  | taken {x : ChainId} {c : Chain} (hc : m.chain? x = some c) (hs : c.stage = .join []) :
    Bookkeeping m (.run x) { m.launcher with handles := [] }
  | recorded {x : ChainId} {c : Chain} {o : Outcome} (hc : m.chain? x = some c)
    (hs : c.stage = .exit o) : Bookkeeping m (.run x) (m.record c o).launcher
  | retired {x : ChainId} {c : Chain} {o : Outcome} (hc : m.chain? x = some c)
    (hs : c.stage = .leave o) : Bookkeeping m (.run x) (m.retire c).launcher

/-- There is no other way in which a move changes the launcher. -/
theorem bookkeeping_step (m : Machine) (mv : Move) : m.Bookkeeping mv (m.step mv).launcher := by
  have hpasses : ∀ {n : Machine}, Passes m n →
      (∀ x c, mv = .run x → m.chain? x = some c → c.stage.isBooking = false) →
        m.Bookkeeping mv n.launcher := by
    intro n hn h
    rw [hn.launcher]
    exact .same h
  cases mv with
  | pass microseconds => exact .same fun _ _ hx => by cases hx
  | seeClosed x => exact hpasses (passes_seeClosed m x) fun _ _ hx => by cases hx
  | run x =>
    simp only [step, run]
    cases hc : m.chain? x with
    | none =>
      refine .same fun y c hy hd => ?_
      cases hy
      rw [hc] at hd
      cases hd
    | some c =>
      -- nothing is booked at any other stage
      have hidle : ∀ {stage : Stage}, c.stage = stage → stage.isBooking = false →
          ∀ y d, Move.run x = .run y → m.chain? y = some d → d.stage.isBooking = false := by
        rintro stage rfl hidle y d ⟨⟩ hd
        rw [hc] at hd
        cases hd
        exact hidle
      dsimp only
      cases hs : c.stage
      all_goals dsimp only
      case send => exact hpasses (passes_send hc hs) (hidle hs rfl)
      case receive => exact hpasses (passes_receive hc hs) (hidle hs rfl)
      case sleep =>
        simp only [wake]
        split_ifs <;> exact .same (hidle hs rfl)
      case spawn => exact .reserved hc hs
      case launch =>
        rw [launch]
        split
        case h_1 hr => exact .launched hc hs hr
        case h_2 hr => exact .denied hc hs hr
      case withdraw => exact .withdrawn hc hs
      case enlist => exact .enlisted hc hs
      case join chains =>
        cases chains with
        | cons first rest =>
          simp only [join]
          split_ifs <;> exact .same (hidle hs rfl)
        | nil =>
          have htaken := Bookkeeping.taken hc hs
          simp only [join]
          split
          case h_1 hnone => rwa [← hnone] at htaken
          case h_2 => exact htaken
      case exit => exact .recorded hc hs
      case leave => exact .retired hc hs
      case pause | ended | lost => exact .same (hidle hs rfl)
      all_goals
        simp only [Chain.advance, hs, stepChain_eq]
        split <;> exact .same (hidle hs rfl)

lemma started_record (m : Machine) (c : Chain) (o : Outcome) :
    (m.record c o).launcher.started = m.launcher.started := by
  simp only [record]
  split <;> rfl

lemma live_record (m : Machine) (c : Chain) (o : Outcome) :
    (m.record c o).launcher.live = m.launcher.live := by
  simp only [record]
  split <;> rfl

lemma handles_record (m : Machine) (c : Chain) (o : Outcome) :
    (m.record c o).launcher.handles = m.launcher.handles := by
  simp only [record]
  split <;> rfl

lemma retire_launcher (m : Machine) (c : Chain) : (m.retire c).launcher =
    { m.launcher with live := if c.task.isSome then m.launcher.live - 1 else m.launcher.live } := by
  simp only [retire]
  split_ifs <;> rfl

/-- Numbers of tasks are never taken back. -/
lemma started_le_step (m : Machine) (mv : Move) :
    m.launcher.started ≤ (m.step mv).launcher.started := by
  have hbooks := m.bookkeeping_step mv
  generalize (m.step mv).launcher = l at hbooks
  cases hbooks with
  | reserved => exact Nat.le_succ _
  | recorded => exact Nat.le_of_eq (started_record ..).symm
  | retired => exact Nat.le_of_eq (by rw [retire_launcher])
  | _ => exact Nat.le_refl _

end Machine

end Flowgraph
