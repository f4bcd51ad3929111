import Flowgraph.Proofs.Abort.Account
import Flowgraph.Proofs.Apart.Parting

/-!
# Turns of a chain

When a chain makes its move, it changes itself and perhaps the store; all others stay as they are. A
chain that does a job makes a step of the job, or the job does not notice.
-/

namespace Flowgraph

open Named Store

namespace Machine

variable {m m' : Machine} {x : ChainId} {c d e : Chain} {s : Store} {o : Outcome}
  {base : List Walk}

/-- A chain has changed, and the store; there are the same chains as before, and no number was given
out. -/
structure Alters (m : Machine) (x : ChainId) (c : Chain) (s : Store) (m' : Machine) : Prop where
  program : m'.program = m.program
  store : m'.store = s
  started : m'.launcher.started = m.launcher.started
  size : m'.chains.size = m.chains.size
  self : m'.chain? x = some c
  others : ∀ y, y ≠ x → m'.chain? y = m.chain? y

lemma Alters.refl (hc : m.chain? x = some c) : m.Alters x c m.store m :=
  ⟨rfl, rfl, rfl, rfl, hc, fun _ _ => rfl⟩

/-- No chain has been added. -/
lemma Alters.not_created (h : m.Alters x d s m') (hc : m.chain? x = some c) {y : ChainId}
    (hy : m.chain? y = none) (he : m'.chain? y = some e) : False := by
  have hyx : y ≠ x := by
    rintro rfl
    rw [hc] at hy
    cases hy
  rw [h.others y hyx, hy] at he
  cases he

/-- The chain is changed in a machine that has the same chains. -/
lemma alters_setChain (hc : m.chain? x = some c) (m' : Machine) (hp : m'.program = m.program)
    (hchains : m'.chains = m.chains) (hstarted : m'.launcher.started = m.launcher.started)
    (d : Chain) : m.Alters x d m'.store (m'.setChain x d) where
  program := hp
  store := rfl
  started := hstarted
  size := by rw [size_setChain, hchains]
  self := by
    apply chain?_setChain_self (c := c)
    rw [chain?, hchains]
    exact hc
  others y hy := by
    rw [chain?_setChain_of_ne hy, chain?, hchains]
    rfl

lemma alters_account (hc : m.chain? x = some c) (l : Launcher)
    (hl : l.started = m.launcher.started) (d : Chain) :
    m.Alters x d m.store (({ m with launcher := l } : Machine).setChain x d) :=
  alters_setChain hc { m with launcher := l } rfl rfl hl d

lemma started_retire (m : Machine) (c : Chain) :
    (m.retire c).program = m.program ∧ (m.retire c).launcher.started = m.launcher.started := by
  simp only [retire]
  split_ifs <;> exact ⟨rfl, rfl⟩

lemma program_record (m : Machine) (c : Chain) (outcome : Outcome) :
    (m.record c outcome).program = m.program := by
  simp only [record]
  split <;> rfl

/-- A chain makes a step by itself. -/
lemma alters_next (hc : m.chain? x = some c)
    (hpause : ∀ milliseconds, c.stage ≠ .pause milliseconds)
    (hn : c.next m.program m.store = some (d, s)) : m.Alters x d s (m.step (.run x)) := by
  cases ha : c.advance m.program with
  | some step =>
    rw [Machine.step, run_of_advance hc ha, stepChain_eq]
    rw [Chain.next_of_advance ha] at hn
    cases hr : step m.store with
    | ok d' s' =>
      rw [hr] at hn
      cases hn
      exact alters_setChain hc (m.mapStore fun _ => s) rfl rfl rfl d
    | error stop s' =>
      rw [hr] at hn
      cases hn
      exact alters_setChain hc (m.mapStore fun _ => s) rfl rfl rfl _
  | none =>
    cases hs : c.stage with
    | pause milliseconds => exact absurd hs (hpause milliseconds)
    | _ => simp [Chain.next, hs, ha] at hn

lemma alters_pause (hc : m.chain? x = some c) {milliseconds : Nat}
    (hs : c.stage = .pause milliseconds) :
    m.Alters x { c with stage := .sleep (m.clock + 1000 * milliseconds) } m.store
      (m.step (.run x)) := by
  simp only [step, run, hc, hs]
  exact alters_setChain hc m rfl rfl rfl _

/-- A chain that sleeps sleeps on, or wakes up. -/
lemma alters_sleep (hc : m.chain? x = some c) {time : Nat} (hs : c.stage = .sleep time) :
    m.Alters x c m.store (m.step (.run x)) ∧ m.clock < time ∨
      m.Alters x c.proceed m.store (m.step (.run x)) := by
  simp only [step, run, hc, hs, wake]
  split_ifs with htime
  · exact .inr (alters_setChain hc m rfl rfl rfl _)
  · exact .inl ⟨.refl hc, Nat.lt_of_not_le htime⟩

/-- A chain has no use for a move: it has ended, or its time has not come. -/
def Waits (m : Machine) (c : Chain) : Prop :=
  c.hasEnded = true ∨ ∃ time, c.stage = .sleep time ∧ m.clock < time

/-- On its way to its end, a chain touches no store. -/
lemma alters_parting (hc : m.chain? x = some c) (h : c.Parting m.program o) :
    ∃ d, m.Alters x d m.store (m.step (.run x)) ∧ d.Parting m.program o ∧ d.task = c.task ∧
      (d.stage.tail < c.stage.tail ∨ d = c ∧ m.Waits c) := by
  have hstep : ∀ {d : Chain}, c.Steps m.program m.store d m.store →
      m.Alters x d m.store (m.step (.run x)) := by
    intro d h
    rw [step_of_steps hc h]
    exact alters_setChain hc m rfl rfl rfl d
  have htail : ∀ {stage : Stage} {d : Chain}, c.stage = stage → stage.tail = d.stage.tail + 1 →
      d.stage.tail < c.stage.tail ∨ d = c ∧ m.Waits c := by
    intro stage d hs hn
    rw [hs, hn]
    exact .inl (Nat.lt_succ_self _)
  cases h with
  | settled h =>
    cases h with
    | @delivering vs _ hw hs =>
      exact ⟨c.exit (.ok vs), hstep (.handed hs (by simp [hw])), Chain.parting_exit _, rfl,
        htail hs rfl⟩
    | @exiting o _ hs =>
      refine ⟨{ c with stage := .leave o }, ?_, .settled (.leaving rfl), rfl,
        htail hs rfl⟩
      rw [step_exit hc hs, ← (chains_record m c o).2]
      exact alters_setChain hc _ (program_record m c o) (chains_record m c o).1
        (started_record m c o) _
    | @leaving o _ hs =>
      refine ⟨{ c with stage := .ended o }, ?_, .settled (.ended rfl), rfl,
        htail hs rfl⟩
      rw [step_leave hc hs, ← (chains_retire m c).2]
      exact alters_setChain hc _ (started_retire m c).1 (chains_retire m c).1
        (started_retire m c).2 _
    | ended hs =>
      rw [step_ended hc hs]
      have hended : c.hasEnded = true := by rw [Chain.hasEnded, Chain.outcome?, hs]; rfl
      exact ⟨c, .refl hc, .settled (.ended hs), rfl, .inr ⟨rfl, .inl hended⟩⟩
  | @following id _ hid hw hs =>
    exact ⟨{ c with walks := [{ Walk.atNode id with node := none }], stage := .walk },
      hstep (.edge hs hw (hid.successor _ m.store)), .walking rfl rfl, rfl, htail hs rfl⟩
  | @walking id _ hw hs =>
    exact ⟨{ c with walks := [], stage := .deliver [] },
      hstep (.results hs hw rfl (Program.results_of_zero rfl m.store)),
      .settled (.delivering rfl rfl), rfl, htail hs rfl⟩

/-- Neither does a chain that has started a task. -/
lemma alters_enlist (hc : m.chain? x = some c) {id : NodeId} {child : ChainId}
    (hid : m.program.Last id) (hw : c.walks = [.atNode id]) (hs : c.stage = .enlist child) :
    ∃ d, m.Alters x d m.store (m.step (.run x)) ∧ d.Parting m.program (.ok []) ∧
      d.stage.tail < c.stage.tail := by
  refine ⟨{ c with stage := .follow }, ?_, .following hid hw rfl, ?_⟩
  swap
  · rw [hs]
    exact Nat.lt_succ_self _
  have hproceed : c.proceed = { c with stage := .follow } := by
    rw [Chain.proceed, if_neg (by simp [hw])]
  simp only [step, run, hc, hs, enlist, hproceed]
  exact alters_account hc _ (by rfl) _

/-- A chain that joins touches no store, either. -/
lemma alters_join (hc : m.chain? x = some c) {chains : List ChainId} (hw : c.walks = [])
    (hs : c.stage = .join chains) : ∃ d, m.Alters x d m.store (m.step (.run x)) ∧
      (d.walks = [] ∧ (∃ next, d.stage = .join next) ∨ d.Parting m.program (.ok [])) := by
  simp only [step, run, hc, hs]
  cases chains with
  | cons y rest =>
    simp only [join]
    split_ifs
    · exact ⟨_, alters_setChain hc m rfl rfl rfl _, .inl ⟨hw, rest, rfl⟩⟩
    · exact ⟨c, .refl hc, .inl ⟨hw, _, hs⟩⟩
  | nil =>
    simp only [join]
    split
    · exact ⟨_, alters_setChain hc m rfl rfl rfl _, .inr (Chain.parting_exit _)⟩
    · exact ⟨_, alters_account hc _ (by rfl) _, .inl ⟨hw, _, rfl⟩⟩

lemma eq_nextChain_iff {y : ChainId} : y = m.nextChain ↔ y.index = m.chains.size := by
  refine ⟨fun hy => ?_, fun hy => congrArg ChainId.mk hy⟩
  rw [hy]
  rfl

/-- Starting a task adds a chain. -/
lemma chain?_grant_eq (hc : m.chain? x = some c) (t : TaskId) (callee : Callee) (y : ChainId) :
    (m.grant x c t callee).chain? y = if y = m.nextChain then some (.ofTask t callee)
      else if y = x then some { c with stage := .enlist m.nextChain } else m.chain? y := by
  have hlt : x.index < m.chains.size := (Array.getElem?_eq_some_iff.mp hc).1
  rw [chain?_grant]
  by_cases hyx : y = x
  · have hne : y ≠ m.nextChain := by
      rintro rfl
      rw [← hyx] at hlt
      exact Nat.lt_irrefl _ hlt
    rw [if_neg hne, if_pos hyx, hyx]
    exact chain?_setChain_self (chain?_addChain_of_some hc _)
  · rw [if_neg hyx, chain?_setChain_of_ne hyx, chain?_addChain_eq]
    exact if_congr eq_nextChain_iff.symm rfl rfl

/-- A chain that does a job makes a step of the job, or does something that the job does not
notice. -/
theorem alters_shown (hc : m.chain? x = some c) (hbelow : m.program.Below base)
    (hr : e.Regular m.program) (hsolo : e.stage.isSolo = true) (h : e.Shows m.program base c) :
    ∃ d, d.task = c.task ∧
      (m.Alters x d m.store (m.step (.run x)) ∧ e.Shows m.program base d ∧
          ((∀ n, (n = 0 ↔ ∃ o, e.stage = .exit o) → d.due n < c.due n) ∨ d = c ∧ m.Waits c) ∨
        ∃ e' s, e.next m.program m.store = some (e', s) ∧ m.Alters x d s (m.step (.run x)) ∧
          e'.Shows m.program base d) := by
  cases h with
  | within hw hs hexit =>
    by_cases hpause : ∃ milliseconds, e.stage = .pause milliseconds
    · obtain ⟨milliseconds, he⟩ := hpause
      refine ⟨{ c with stage := .sleep _ }, rfl, .inl ⟨alters_pause hc (hs.trans he),
        .asleep hw he rfl, .inl fun n hn => ?_⟩⟩
      cases n with
      | zero =>
        obtain ⟨o, ho⟩ := hn.mp rfl
        exact absurd ho (hexit o)
      | succ n => simp [Chain.due, hs, he]
    · have hpause : ∀ milliseconds, e.stage ≠ .pause milliseconds := fun ms he => hpause ⟨ms, he⟩
      obtain ⟨e', s', hn⟩ := Chain.exists_next (p := m.program) hsolo hexit m.store
      obtain ⟨d, hd, hshows, htask⟩ := Chain.next_shown hw hbelow hr hsolo hs hpause hn
      exact ⟨d, htask, .inr ⟨e', s', hn, alters_next hc (hs ▸ hpause) hd, hshows⟩⟩
  | asleep hw he hs =>
    rcases alters_sleep hc hs with ⟨halters, htime⟩ | halters
    · exact ⟨c, rfl, .inl ⟨halters, .asleep hw he hs, .inr ⟨rfl, .inr ⟨_, hs, htime⟩⟩⟩⟩
    · have hn : e.next m.program m.store = some (e.proceed, m.store) := by rw [Chain.next, he]
      refine ⟨c.proceed, c.task_proceed, .inr ⟨_, _, hn, halters, ?_⟩⟩
      have hne : e.walks ≠ [] := hr.walking (by rw [he]; rfl)
      have hne' : c.walks ≠ [] := by
        rw [hw]
        exact List.append_ne_nil_of_left_ne_nil hne _
      rw [Chain.proceed, Chain.proceed, if_neg (mt List.isEmpty_iff.mp hne),
        if_neg (mt List.isEmpty_iff.mp hne')]
      exact .within hw rfl (by rintro o ⟨⟩)
  | finished he hpart =>
    obtain ⟨d, halters, hd, htask, hnearer⟩ := alters_parting hc hpart
    refine ⟨d, htask, .inl ⟨halters, .finished he hd, hnearer.imp_left fun hlt n hn => ?_⟩⟩
    cases hn.mpr ⟨_, he⟩
    exact hlt

end Machine

end Flowgraph
