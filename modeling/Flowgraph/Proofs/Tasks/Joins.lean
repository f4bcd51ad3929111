import Mathlib.Tactic.Common
import Flowgraph.Proofs.Tasks.Accounts
import Flowgraph.Proofs.Tasks.Joinable

/-!
# Joining waits

A host that joins tasks waits for all whose launch was complete when it began, and for all that
these launch meanwhile, if nobody else joins tasks at the same time. Whoever joins takes the list of
those to be joined, so that another one who joins meanwhile does not find them there.
-/

namespace Flowgraph

namespace Machine

variable {m start : Machine} {x y z : ChainId} {c d : Chain} {mv : Move} {l : Ledger}
  {D : ChainId → Prop}

/-! ### What becomes of those who are about to have a task joined, or join tasks -/

/-- A chain is about to have another one joined because it was before, or because it has just
launched it. -/
lemma enlist_of_step (hc : m.chain? z = some c) (hd : (m.step mv).chain? z = some d)
    (hs : d.stage = .enlist y) : d = c ∨
      mv = .run z ∧ y = m.nextChain ∧ ∃ t callee, c.stage = .launch t callee := by
  cases next_of_step hc hd with
  | same => exact .inl rfl
  | restaged hr =>
    cases hr with
    | @launched t callee child hlaunch =>
      by_cases hmv : mv = .run z
      · subst hmv
        cases hr : m.program.config.refusal? t.index with
        | none =>
          rw [step_grant hc hlaunch hr, chain?_grant,
            chain?_setChain_self (chain?_addChain_of_some hc _)] at hd
          cases hd
          exact .inr ⟨rfl, (Stage.enlist.inj hs).symm, t, callee, hlaunch⟩
        | some message =>
          rw [step_deny hc hlaunch hr] at hd
          cases hd.symm.trans (chain?_setChain_self (m := m.count) hc)
      · have hstays := chain?_step_of_stage hmv hc hlaunch
        rw [hd] at hstays
        exact .inl (Option.some.inj hstays)
    | sent | awake | enlisted =>
      simp only [Chain.proceed] at hs
      split_ifs at hs
      all_goals cases hs
    | _ => cases hs
  | advanced _ ha hr =>
    have honward := (Chain.steps_of_advance ha hr).onward
    rw [hs] at honward
    cases honward
  | @stopped _ e _ _ _ _ => cases e <;> cases hs

/-- Who joins tasks has done so before. -/
lemma join_of_step {chains : List ChainId} (hc : m.chain? z = some c)
    (hd : (m.step mv).chain? z = some d) (hs : d.stage = .join chains) :
    ∃ chains, c.stage = .join chains := by
  cases next_of_step hc hd with
  | same => exact ⟨chains, hs⟩
  | restaged hr =>
    cases hr with
    | joining hjoin => exact ⟨_, hjoin⟩
    | sent | awake | enlisted =>
      simp only [Chain.proceed] at hs
      split_ifs at hs
      all_goals cases hs
    | _ => cases hs
  | advanced _ ha hr =>
    have honward := (Chain.steps_of_advance ha hr).onward
    rw [hs] at honward
    cases honward
  | @stopped _ e _ _ _ _ => cases e <;> cases hs

/-- A chain that joins tasks has come to its end. -/
def Returns (m : Machine) (mv : Move) (x : ChainId) : Prop :=
  (∃ c chains, m.chain? x = some c ∧ c.stage = .join chains) ∧
    ∀ d chains, (m.step mv).chain? x = some d → d.stage ≠ .join chains

/-- It does so when it waits for nobody any more and there is nothing to be joined. -/
lemma Returns.empty (h : m.Returns mv x) : mv = .run x ∧ m.launcher.handles = [] ∧
    ∃ c, m.chain? x = some c ∧ c.stage = .join [] := by
  obtain ⟨⟨c, chains, hc, hs⟩, hleft⟩ := h
  have hmv : mv = .run x := by
    by_contra hne
    exact hleft c chains (chain?_step_of_stage hne hc hs) hs
  subst hmv
  have hstep : m.step (.run x) = m.join x c chains := by simp only [step, run, hc, hs]
  rw [hstep] at hleft
  cases chains with
  | cons first rest =>
    simp only [join] at hleft
    split_ifs at hleft
    · exact absurd rfl (hleft _ rest (chain?_setChain_self hc))
    · exact absurd hs (hleft c (first :: rest) hc)
  | nil =>
    simp only [join] at hleft
    split at hleft
    case h_1 hnone => exact ⟨rfl, hnone, c, hc, hs⟩
    case h_2 => exact absurd rfl (hleft _ _ (chain?_setChain_self (c := c) hc))

lemma Returns.handles (h : m.Returns mv x) : (m.step mv).launcher.handles = [] := by
  obtain ⟨rfl, hnone, c, hc, hs⟩ := h.empty
  have hstep : m.step (.run x) = m.join x c [] := by simp only [step, run, hc, hs]
  rw [hstep]
  simp only [join]
  split
  case h_1 => exact hnone
  case h_2 hsome => exact absurd hnone hsome

/-! ### Those who are waited for -/

/-- The launch of a task is complete: the task has a chain, which nobody is about to enter among
those to be joined. -/
def Launched (m : Machine) (y : ChainId) : Prop :=
  (∃ c, m.chain? y = some c ∧ c.task.isSome = true) ∧
    ∀ x c, m.chain? x = some c → c.stage ≠ .enlist y

/-- Some tasks, and the task that one of them launches in a move. -/
def heirs (m : Machine) (mv : Move) (D : ChainId → Prop) (y : ChainId) : Prop :=
  D y ∨ y = m.nextChain ∧ ∃ z c t callee, D z ∧ mv = .run z ∧ m.chain? z = some c ∧
    c.stage = .launch t callee ∧ m.program.config.refusal? t.index = none

/-- What a machine becomes when a host has begun to join tasks, as long as no other host does, and
the tasks whose launch was complete at the beginning, with all that they have launched since. Other
hosts may begin chains, change the store and take the recorded faults. -/
inductive Awaits (start : Machine) : (ChainId → Prop) → Machine → Prop
  | start : Awaits start start.Launched (start.addChain .ofJoin).2
  | move {D : ChainId → Prop} {m : Machine} (h : Awaits start D m) (mv : Move) :
    Awaits start (m.heirs mv D) (m.step mv)
  | host {D : ChainId → Prop} {m : Machine} {c : Chain} (h : Awaits start D m) (hc : c.Hosted)
    (hjoin : c ≠ .ofJoin) : Awaits start D (m.addChain c).2
  | change {D : ChainId → Prop} {m : Machine} (h : Awaits start D m) (s : Store) :
    Awaits start D { m with store := s }
  | takeFaults {D : ChainId → Prop} {m : Machine} (h : Awaits start D m) :
    Awaits start D m.takeFaults.2

/-- While one chain joins tasks: the tasks in question can be joined, by this chain or by others of
them that were there before, and when the chain has come to its end, so have they. -/
structure Waiting (x : ChainId) (D : ChainId → Prop) (m : Machine) : Prop where
  joinable : m.Joinable
  listed : m.Listed
  counts : m.Counts
  joiner : ∃ c, m.chain? x = some c
  alone : ∀ z c chains, m.chain? z = some c → c.stage = .join chains → z = x
  tasks : ∀ y, D y → ∃ c, m.chain? y = some c ∧ c.task.isSome = true
  enlisted : ∀ y z c, D y → m.chain? z = some c → c.stage = .enlist y → D z ∧ z.index < y.index
  returned : ∀ c, m.chain? x = some c → (∀ chains, c.stage ≠ .join chains) →
    ∀ y, D y → m.hasEnded y = true

lemma not_chain?_nextChain : m.chain? m.nextChain ≠ some c := fun h =>
  absurd (Array.getElem?_eq_some_iff.mp h).1 (Nat.lt_irrefl _)

namespace Waiting

variable (h : m.Waiting x D)

include h

/-- When there is nothing to be joined, and the chain waits for nobody any more, all tasks in
question have come to their ends. -/
lemma ended (hc : m.chain? x = some c) (hs : c.stage = .join []) (hnone : m.launcher.handles = [])
    (hy : D y) : m.hasEnded y = true := by
  -- a task that has not ended would be about to be enlisted by one that was there before
  induction hi : y.index using Nat.strong_induction_on generalizing y with
  | h i ih =>
    subst hi
    by_contra hended
    obtain ⟨e, he, htask⟩ := h.tasks y hy
    rw [Machine.hasEnded, he] at hended
    rcases h.joinable y e he htask (Bool.not_eq_true _ ▸ hended) with hin | ⟨z, d, hd, hlists⟩
    · rw [hnone] at hin
      cases hin
    · cases hz : d.stage with
      | enlist child =>
        rw [Chain.Lists, hz] at hlists
        subst hlists
        obtain ⟨hDz, hlt⟩ := h.enlisted child z d hy hd hz
        have hzended := ih z.index hlt hDz rfl
        rw [Machine.hasEnded, hd, Option.any_some, hasEnded_of_stage hz] at hzended
        cases hzended
      | join chains =>
        obtain rfl := h.alone z d chains hd hz
        rw [hc] at hd
        cases hd
        rw [Chain.Lists, hs] at hlists
        cases hlists
      | _ => simp [Chain.Lists, hz] at hlists

lemma alone_step {chains : List ChainId} (hd : (m.step mv).chain? z = some d)
    (hs : d.stage = .join chains) : z = x := by
  cases hc : m.chain? z with
  | some c =>
    obtain ⟨chains', hs'⟩ := join_of_step hc hd hs
    exact h.alone z c chains' hc hs'
  | none =>
    obtain ⟨_, _, _, _, -, -, -, -, rfl⟩ := launched_of_step hc hd
    cases hs

/-- A task that has just been launched has a chain. -/
lemma tasks_step (hy : m.heirs mv D y) :
    ∃ c, (m.step mv).chain? y = some c ∧ c.task.isSome = true := by
  rcases hy with hy | ⟨rfl, z, c, t, callee, -, rfl, hc, hs, hr⟩
  · obtain ⟨c, hc, htask⟩ := h.tasks y hy
    obtain ⟨d, hd⟩ := exists_chain?_step ⟨c, hc⟩ mv
    exact ⟨d, hd, task_step hc hd ▸ htask⟩
  · refine ⟨.ofTask t callee, ?_, rfl⟩
    have hne : m.nextChain ≠ z := by
      rintro rfl
      exact not_chain?_nextChain hc
    rw [step_grant hc hs hr, chain?_grant, chain?_setChain_of_ne hne]
    exact m.chain?_addChain _

/-- A task in question is enlisted by the one that has launched it. -/
lemma enlisted_step (hy : m.heirs mv D y) (hd : (m.step mv).chain? z = some d)
    (hs : d.stage = .enlist y) : m.heirs mv D z ∧ z.index < y.index := by
  cases hc : m.chain? z with
  | none =>
    obtain ⟨_, _, _, _, -, -, -, -, rfl⟩ := launched_of_step hc hd
    cases hs
  | some c =>
    rcases enlist_of_step hc hd hs with rfl | ⟨hmv, rfl, t, callee, hlaunch⟩
    · have hold : D y := by
        rcases hy with hy | ⟨rfl, -⟩
        · exact hy
        · -- nobody can be about to enlist a chain that is not there
          obtain ⟨e, he, -⟩ := h.listed m.nextChain (.inr ⟨z, d, hc, by rw [Chain.Lists, hs]⟩)
          exact absurd he not_chain?_nextChain
      exact (h.enlisted y z d hold hc hs).imp_left .inl
    · refine ⟨.inl ?_, (Array.getElem?_eq_some_iff.mp hc).1⟩
      rcases hy with hy | ⟨-, z', _, _, _, hz', hmv', -⟩
      · obtain ⟨e, he, -⟩ := h.tasks _ hy
        exact absurd he not_chain?_nextChain
      · rw [hmv] at hmv'
        cases hmv'
        exact hz'

/-- When the chain has come to its end, nobody launches anything on whose behalf it has waited. -/
lemma returned_step (hd : (m.step mv).chain? x = some d)
    (hleft : ∀ chains, d.stage ≠ .join chains) (hy : m.heirs mv D y) :
    (m.step mv).hasEnded y = true := by
  obtain ⟨c, hc⟩ := h.joiner
  by_cases hjoin : ∃ chains, c.stage = .join chains
  · obtain ⟨chains, hs⟩ := hjoin
    have hreturns : m.Returns mv x := ⟨⟨c, chains, hc, hs⟩, fun d' chains' hd' => by
      rw [hd] at hd'
      cases hd'
      exact hleft chains'⟩
    obtain ⟨rfl, hnone, c', hc', hs'⟩ := hreturns.empty
    rcases hy with hy | ⟨-, z, e, t, callee, -, hmv, he, hlaunch, -⟩
    · exact hasEnded_step (h.ended hc' hs' hnone hy) _
    · cases hmv
      rw [hc'] at he
      cases he
      rw [hs'] at hlaunch
      cases hlaunch
  · have hended := h.returned c hc fun chains hs => hjoin ⟨chains, hs⟩
    rcases hy with hy | ⟨-, z, e, t, callee, hz, -, he, hlaunch, -⟩
    · exact hasEnded_step (hended y hy) mv
    · have hzended := hended z hz
      rw [Machine.hasEnded, he, Option.any_some, hasEnded_of_stage hlaunch] at hzended
      cases hzended

lemma step (mv : Move) : (m.step mv).Waiting x (m.heirs mv D) where
  joinable := h.joinable.step mv
  listed := h.listed.step mv
  counts := h.counts.step mv
  joiner := exists_chain?_step h.joiner mv
  alone _ _ _ hd hs := h.alone_step hd hs
  tasks _ hy := h.tasks_step hy
  enlisted _ _ _ hy hd hs := h.enlisted_step hy hd hs
  returned _ hd hleft _ hy := h.returned_step hd hleft hy

lemma addChain (hc : c.Hosted) (hjoin : c ≠ .ofJoin) : (m.addChain c).2.Waiting x D where
  joinable := h.joinable.addChain hc
  listed := h.listed.addChain hc
  counts := h.counts.addChain hc
  joiner := h.joiner.imp fun _ hd => chain?_addChain_of_some hd c
  alone z d chains hd hs := by
    rw [chain?_addChain_eq] at hd
    split_ifs at hd
    · cases hd
      cases hc with
      | ofJoin => exact absurd rfl hjoin
      | _ => cases hs
    · exact h.alone z d chains hd hs
  tasks y hy := (h.tasks y hy).imp fun _ he => ⟨chain?_addChain_of_some he.1 c, he.2⟩
  enlisted y z d hy hd hs := by
    rw [chain?_addChain_eq] at hd
    split_ifs at hd
    · cases hd
      cases hc <;> cases hs
    · exact h.enlisted y z d hy hd hs
  returned d hd hleft y hy := by
    have hold : ∀ {z e}, m.chain? z = some e → (m.addChain c).2.chain? z = some e :=
      fun he => chain?_addChain_of_some he c
    obtain ⟨e, he⟩ := h.joiner
    cases hd.symm.trans (hold he)
    obtain ⟨f, hf, -⟩ := h.tasks y hy
    have hended := h.returned d he hleft y hy
    rw [Machine.hasEnded, hf] at hended
    rwa [Machine.hasEnded, hold hf]

/-- When the chain comes to its end and no tasks are left but those in question, none is at work. -/
lemma settled (hr : m.Returns mv x)
    (hall : ∀ y c, m.chain? y = some c → c.task.isSome = true → D y) :
    (m.step mv).atWork = ∅ := by
  obtain ⟨rfl, hnone, c, hc, hs⟩ := hr.empty
  have hended := fun y (hy : D y) => h.ended hc hs hnone hy
  rw [Finset.eq_empty_iff_forall_notMem]
  intro i hi
  obtain ⟨d, hd, hlive⟩ := mem_places.mp hi
  rw [Chain.isLive, Bool.and_eq_true] at hlive
  cases he : m.chain? ⟨i⟩ with
  | some e =>
    have hstill := hasEnded_step (hended ⟨i⟩ (hall _ e he (task_step he hd ▸ hlive.1))) (.run x)
    rw [Machine.hasEnded, hd, Option.any_some] at hstill
    rw [hstill] at hlive
    cases hlive.2
  | none =>
    -- whoever joins does not launch anything
    obtain ⟨z, e, t, callee, hmv, hz, hlaunch, -⟩ := launched_of_step he hd
    cases hmv
    rw [hc] at hz
    cases hz
    rw [hs] at hlaunch
    cases hlaunch

end Waiting

/-! ### Runs -/

lemma Logs.joinable {graph : Graph} {natives : Registry} {config : Config} {kept : Bool}
    (hload : Machine.load graph natives config kept = .ok start) (h : Logs start l m) :
    m.Joinable ∧ m.Listed := by
  induction h with
  | start =>
    obtain ⟨p, -, rfl⟩ := Machine.of_load hload
    have hnone : ∀ x, (ofProgram p kept).chain? x = none := fun x => Array.getElem?_empty
    refine ⟨fun y c hc => (by rw [hnone] at hc; cases hc), fun y hy => ?_⟩
    rcases hy with hy | ⟨x, c, hc, -⟩
    · cases hy
    · rw [hnone] at hc
      cases hc
  | move _ mv ih => exact ⟨ih.1.step mv, ih.2.step mv⟩
  | host _ hc ih => exact ⟨ih.1.addChain hc, ih.2.addChain hc⟩
  | change _ _ ih | drain _ ih => exact ih

lemma Awaits.waiting (h : Awaits start D m) (hjoinable : start.Joinable) (hlisted : start.Listed)
    (hcounts : start.Counts)
    (halone : ∀ z c chains, start.chain? z = some c → c.stage ≠ .join chains) :
    m.Waiting start.nextChain D := by
  induction h with
  | move _ mv ih => exact ih.step mv
  | host _ hc hjoin ih => exact ih.addChain hc hjoin
  | change _ _ ih | takeFaults _ ih =>
    exact ⟨ih.joinable, ih.listed, ih.counts, ih.joiner, ih.alone, ih.tasks, ih.enlisted,
      ih.returned⟩
  | start => exact {
      joinable := hjoinable.addChain .ofJoin
      listed := hlisted.addChain .ofJoin
      counts := hcounts.addChain .ofJoin
      joiner := ⟨_, start.chain?_addChain _⟩
      alone := fun z c chains hc hs => by
        rw [chain?_addChain_eq] at hc
        split_ifs at hc with hz
        · exact congrArg ChainId.mk hz
        · exact absurd hs (halone z c chains hc)
      tasks := fun y hy => hy.1.imp fun _ hc => ⟨chain?_addChain_of_some hc.1 _, hc.2⟩
      enlisted := fun y z c hy hc hs => by
        rw [chain?_addChain_eq] at hc
        split_ifs at hc
        · cases hc
          cases hs
        · exact absurd hs (hy.2 z c hc)
      returned := fun c hc hleft => by
        cases hc.symm.trans (start.chain?_addChain .ofJoin)
        exact absurd rfl (hleft []) }

/-- Whoever joins tasks alone waits: when it has come to its end, all tasks whose launch was
complete when it began have come to their ends, and so have all that they have launched since. At
that moment nothing is left to be joined, and if these are all tasks there are, then none is at
work: the launcher counts none, but those that another chain was just refused a thread for. -/
theorem join_waits {graph : Graph} {natives : Registry} {config : Config} {kept : Bool}
    {before : Machine} (hload : Machine.load graph natives config kept = .ok start)
    (hbefore : Logs start l before)
    (halone : ∀ z c chains, before.chain? z = some c → c.stage ≠ .join chains)
    (h : Awaits before D m) :
    (∀ c, m.chain? before.nextChain = some c → (∀ chains, c.stage ≠ .join chains) →
      ∀ y, D y → m.hasEnded y = true) ∧
    ∀ mv, m.Returns mv before.nextChain → (m.step mv).launcher.handles = [] ∧
      ((∀ y c, m.chain? y = some c → c.task.isSome = true → D y) → (m.step mv).atWork = ∅ ∧
        (m.step mv).launcher.live = (m.step mv).withdrawing.card) := by
  obtain ⟨hjoinable, hlisted⟩ := hbefore.joinable hload
  have hwaiting := h.waiting hjoinable hlisted (hbefore.agrees hload).counts halone
  refine ⟨hwaiting.returned, fun mv hr => ⟨hr.handles, fun hall => ?_⟩⟩
  have hempty := hwaiting.settled hr hall
  refine ⟨hempty, ?_⟩
  rw [hwaiting.counts.step mv, hempty, Finset.card_empty, Nat.zero_add]

/-- Of two who join at the same time, the second one does not wait. It finds nothing to be joined,
and comes to its end while the task is at work for which the first one waits. -/
theorem join_overlapping : ∃ start l m, Machine.load nestedTasks .empty {} true = .ok start ∧
    Logs start l m ∧ (m.chain? ⟨3⟩).bind Chain.outcome? = some (.ok []) ∧
      (m.chain? ⟨2⟩).map Chain.stage = some (.join [⟨1⟩]) ∧ m.hasEnded ⟨1⟩ = false ∧
        m.launcher.live = 1 := by
  obtain ⟨start, hload⟩ : ∃ start, Machine.load nestedTasks .empty {} true = .ok start := ⟨_, rfl⟩
  have hspawned : Logs start _ _ := (Logs.start.host (.atNode ⟨8⟩)).moves
    [.run ⟨0⟩, .run ⟨0⟩, .run ⟨0⟩, .run ⟨0⟩]
  have hfirst := (hspawned.host .ofJoin).move (.run ⟨2⟩)
  have hsecond := (hfirst.host .ofJoin).moves [.run ⟨3⟩, .run ⟨3⟩, .run ⟨3⟩]
  refine ⟨start, _, _, hload, hsecond, ?_⟩
  cases hload
  exact ⟨rfl, rfl, rfl, rfl⟩

end Machine

end Flowgraph
