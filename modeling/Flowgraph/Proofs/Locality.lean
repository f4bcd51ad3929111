import Mathlib.Tactic.Common
import Flowgraph.Proofs.Stages

/-!
# What moves make of one chain

A chain moves by itself. Only while it is parked on a channel can others do something to it: they
tell it to try again, take the value that it offers, or give it the value that it waits for.
-/

namespace Flowgraph

namespace Machine

variable {m m' : Machine} {id x y : ChainId} {c d : Chain} {ch : ChannelId}

/-- What a move makes of a chain. -/
inductive Next (m : Machine) (x : ChainId) (mv : Move) (c : Chain) : Chain → Prop
  | same : Next m x mv c c
  | restaged {d : Chain} (h : m.Restaged c d) : Next m x mv c d
  | advanced {step : Op Chain} {d : Chain} {s : Store} (hmv : mv = .run x)
    (ha : c.advance m.program = some step) (h : step m.store = .ok d s) : Next m x mv c d
  | stopped {step : Op Chain} {e : Stop} {s : Store} (hmv : mv = .run x)
    (ha : c.advance m.program = some step) (h : step m.store = .error e s) :
    Next m x mv c (stopChain c e)

theorem next_of_step {mv : Move} (hc : m.chain? x = some c) (hd : (m.step mv).chain? x = some d) :
    m.Next x mv c d := by
  have hsame : m.chain? x = some d → m.Next x mv c d := fun hd => by
    rw [hc] at hd
    cases hd
    exact .same
  rcases m.step_cases mv with hp | ⟨y, c', step, rfl, hc', ha, hstep⟩
  · rcases hp.chains x d hd with hd | ⟨c', hc', hr⟩ | ⟨_, _, _, _, _, _, _, rfl, _⟩
    · exact hsame hd
    · rw [hc] at hc'
      cases hc'
      exact .restaged hr
    · exact absurd (Array.getElem?_eq_some_iff.mp hc).1 (Nat.lt_irrefl _)
  · rw [hstep] at hd
    rcases of_chain?_stepChain hd with hd | ⟨rfl, hnext⟩
    · exact hsame hd
    · rw [hc] at hc'
      cases hc'
      cases hr : step m.store with
      | ok d' s =>
        rw [hr] at hnext
        cases hnext
        exact .advanced rfl ha hr
      | error e s =>
        rw [hr] at hnext
        cases hnext
        exact .stopped rfl ha hr

/-- A chain that was not there before a move is a task that has been launched. -/
theorem launched_of_step {mv : Move} (hnone : m.chain? x = none)
    (hd : (m.step mv).chain? x = some d) : ∃ y c task callee, mv = .run y ∧ m.chain? y = some c ∧
      c.stage = .launch task callee ∧ x = ⟨m.chains.size⟩ ∧ d = .ofTask task callee := by
  rcases m.step_cases mv with hp | ⟨y, c, step, -, hc, -, hstep⟩
  · rcases hp.chains x d hd with hd | ⟨c, hc, -⟩ | hlaunched
    · rw [hnone] at hd; cases hd
    · rw [hnone] at hc; cases hc
    · exact hlaunched
  · rw [hstep] at hd
    rcases of_chain?_stepChain hd with hd | ⟨rfl, -⟩
    · rw [hnone] at hd; cases hd
    · rw [hnone] at hc; cases hc

/-- Then the system has had a thread for the task. -/
theorem granted_of_step {y : ChainId} {e : Chain} {task : TaskId} {callee : Callee}
    (hnone : m.chain? x = none) (hd : (m.step (.run y)).chain? x = some d)
    (he : m.chain? y = some e) (hs : e.stage = .launch task callee) :
    m.program.config.refusal? task.index = none := by
  cases hr : m.program.config.refusal? task.index with
  | none => rfl
  | some message =>
    rw [step_deny he hs hr] at hd
    rcases of_chain?_setChain hd with hd | ⟨rfl, -⟩
    · exact absurd (hnone.symm.trans hd) nofun
    · exact absurd (hnone.symm.trans he) nofun

/-- A new chain takes the place of none. -/
lemma chain?_addChain_of_some (hc : m.chain? x = some c) (d : Chain) :
    (m.addChain d).2.chain? x = some c := by
  have hlt : x.index < m.chains.size := (Array.getElem?_eq_some_iff.mp hc).1
  rw [chain?_addChain_eq, if_neg (Nat.ne_of_lt hlt), hc]

lemma chains_record (m : Machine) (c : Chain) (outcome : Outcome) :
    (m.record c outcome).chains = m.chains ∧ (m.record c outcome).store = m.store := by
  simp only [record]
  split <;> exact ⟨rfl, rfl⟩

lemma chain?_record (outcome : Outcome) : (m.record c outcome).chain? x = m.chain? x := by
  rw [chain?, (chains_record m c outcome).1, chain?]

lemma chains_retire (m : Machine) (c : Chain) :
    (m.retire c).chains = m.chains ∧ (m.retire c).store = m.store := by
  simp only [retire]
  split_ifs <;> exact ⟨rfl, rfl⟩

lemma chain?_retire : (m.retire c).chain? x = m.chain? x := by
  rw [chain?, (chains_retire m c).1, chain?]

lemma step_exit {outcome : Outcome} (hc : m.chain? id = some c) (hs : c.stage = .exit outcome) :
    m.step (.run id) = (m.record c outcome).setChain id { c with stage := .leave outcome } := by
  simp only [step, run, hc, hs]

lemma step_leave {outcome : Outcome} (hc : m.chain? id = some c) (hs : c.stage = .leave outcome) :
    m.step (.run id) = (m.retire c).setChain id { c with stage := .ended outcome } := by
  simp only [step, run, hc, hs]

lemma step_ended {outcome : Outcome} (hc : m.chain? id = some c) (hs : c.stage = .ended outcome) :
    m.step (.run id) = m := by
  simp only [step, run, hc, hs]

lemma stage_of_hasEnded (h : c.hasEnded = true) : ∃ outcome, c.stage = .ended outcome := by
  simp only [Chain.hasEnded, Chain.outcome?] at h
  split at h
  case h_1 outcome hs => exact ⟨outcome, hs⟩
  case h_2 => cases h

lemma hasEnded_of_stage {stage : Stage} (hs : c.stage = stage)
    (h : ∀ outcome, stage ≠ .ended outcome := by intro _ h; cases h) : c.hasEnded = false := by
  cases hended : c.hasEnded with
  | false => rfl
  | true =>
    obtain ⟨outcome, hs'⟩ := stage_of_hasEnded hended
    exact absurd (hs.symm.trans hs') (h outcome)

/-- A chain that has ended stays as it is. -/
lemma chain?_of_hasEnded {x : ChainId} (hc : m.chain? x = some c) (h : c.hasEnded = true)
    (mv : Move) : (m.step mv).chain? x = some c := by
  obtain ⟨o, hs⟩ := stage_of_hasEnded h
  obtain ⟨d, hd⟩ := exists_chain?_step ⟨c, hc⟩ mv
  cases next_of_step hc hd with
  | same => exact hd
  | restaged hr => cases hr <;> simp_all
  | advanced _ ha | stopped _ ha => simp [Chain.advance, hs] at ha

lemma hasEnded_step {x : ChainId} (h : m.hasEnded x = true) (mv : Move) :
    (m.step mv).hasEnded x = true := by
  cases hc : m.chain? x with
  | none =>
    rw [hasEnded, hc] at h
    cases h
  | some c =>
    rw [hasEnded, hc] at h
    rwa [hasEnded, chain?_of_hasEnded hc h]

/-- What others can do to a chain, which is parked then. -/
inductive Stirred (c : Chain) : Chain → Prop
  | resend {ch : ChannelId} {v : Value} (hs : c.stage = .send ch v .parked) :
    Stirred c { c with stage := .send ch v .offer }
  | relieved {ch : ChannelId} {v : Value} (hs : c.stage = .send ch v .parked) : Stirred c c.proceed
  | retry {ch : ChannelId} {purpose : Purpose} (hs : c.stage = .receive ch purpose .parked) :
    Stirred c { c with stage := .receive ch purpose .offer }
  | served {ch : ChannelId} {purpose : Purpose} (hs : c.stage = .receive ch purpose .parked)
    (v : Value) : Stirred c { c with stage := .received purpose (some v) }

/-- Every chain but one is as it was, or was parked and has been stirred. -/
def Spares (m : Machine) (id : ChainId) (m' : Machine) : Prop :=
  ∀ x c, x ≠ id → m.chain? x = some c →
    m'.chain? x = some c ∨ ∃ d, m'.chain? x = some d ∧ Stirred c d

lemma Spares.of_chains (h : m'.chains = m.chains) : Spares m id m' :=
  fun x c _ hc => .inl (by rw [chain?, h]; exact hc)

lemma Spares.setSelf (h : Spares m id m') (d : Chain) : Spares m id (m'.setChain id d) := by
  intro x c hx hc
  rw [chain?_setChain_of_ne hx]
  exact h x c hx hc

lemma Spares.rouse (hchains : m'.chains = m.chains) (hc : m.chain? y = some c)
    (hd : Stirred c d) : Spares m id (m'.rouse y d) := by
  intro x e hx he
  have hold : m'.chain? y = some c := by rw [chain?, hchains]; exact hc
  by_cases hxy : x = y
  · subst hxy
    rw [hc] at he
    cases he
    exact .inr ⟨d, chain?_setChain_self (m := { m' with waiting := m'.waiting.erase x }) hold, hd⟩
  · refine .inl ?_
    rw [Machine.rouse, chain?_setChain_of_ne hxy, chain?, hchains]
    exact he

lemma Spares.callSender (hchains : m'.chains = m.chains) (ch : ChannelId) :
    Spares m id (m'.callSender ch) := by
  simp only [Machine.callSender]
  split
  case h_1 y c v hy =>
    obtain ⟨hc, ht⟩ := of_firstWaiting? hy
    rw [chain?, hchains] at hc
    exact .rouse hchains hc (.resend (of_offered? ht))
  case h_2 => exact .of_chains hchains

lemma Spares.callReceiver (hchains : m'.chains = m.chains) (ch : ChannelId) :
    Spares m id (m'.callReceiver ch) := by
  simp only [Machine.callReceiver]
  split
  case h_1 y c purpose hy =>
    obtain ⟨hc, ht⟩ := of_firstWaiting? hy
    rw [chain?, hchains] at hc
    exact .rouse hchains hc (.retry (of_wanted? ht))
  case h_2 => exact .of_chains hchains

lemma spares_give? {v : Value} (h : m.give? id c ch v = some m') : Spares m id m' := by
  simp only [give?] at h
  split_ifs at h
  · cases h
    have hchains : (m.mapStore fun s => s.pushValue ch v).chains = m.chains := rfl
    exact (Spares.callReceiver hchains ch).setSelf _
  · obtain ⟨⟨y, e, purpose⟩, hy, rfl⟩ := Option.map_eq_some_iff.mp h
    obtain ⟨he, ht⟩ := of_firstWaiting? hy
    exact (Spares.rouse rfl he (.served (of_wanted? ht) v)).setSelf _

lemma spares_take? {purpose : Purpose} (h : m.take? id c ch purpose = some m') :
    Spares m id m' := by
  simp only [take?] at h
  split at h
  · cases h
    have hchains : (m.mapStore fun s => s.popValue ch).chains = m.chains := rfl
    exact (Spares.callSender hchains ch).setSelf _
  · split_ifs at h
    obtain ⟨⟨y, e, v⟩, hy, rfl⟩ := Option.map_eq_some_iff.mp h
    obtain ⟨he, ht⟩ := of_firstWaiting? hy
    exact (Spares.rouse rfl he (.relieved (of_offered? ht))).setSelf _

/-- Whoever hands a value over has sent it. -/
lemma chain?_give? {v : Value} (hlt : id.index < m.chains.size)
    (h : m.give? id c ch v = some m') : m'.chain? id = some c.proceed := by
  have hset : ∀ {n : Machine}, n.chains.size = m.chains.size →
      (n.setChain id c.proceed).chain? id = some c.proceed := fun hn =>
    chain?_setChain_self (Array.getElem?_eq_getElem (hn.symm ▸ hlt))
  simp only [give?] at h
  split_ifs at h
  · cases h
    have hm : (m.mapStore fun s => s.pushValue ch v).Passes _ := (Passes.refl _).callReceiver rfl ch
    exact hset hm.size
  · obtain ⟨⟨y, e, purpose⟩, -, rfl⟩ := Option.map_eq_some_iff.mp h
    exact hset size_setChain

lemma spares_send (c : Chain) (ch : ChannelId) (v : Value) (phase : SendPhase) :
    Spares m id (m.send id c ch v phase) := by
  have hself : Spares m id m := .of_chains rfl
  cases phase with
  | check =>
    simp only [Machine.send]
    split_ifs <;> exact hself.setSelf _
  | offer =>
    simp only [Machine.send]
    cases hg : m.give? id c ch v with
    | some m' => exact spares_give? hg
    | none =>
      dsimp only
      split_ifs
      · exact hself
      · exact Spares.setSelf (.of_chains rfl) _
  | parked =>
    simp only [Machine.send]
    split_ifs
    · exact Spares.setSelf (.of_chains rfl) _
    · exact hself

lemma spares_receive (c : Chain) (ch : ChannelId) (purpose : Purpose) (phase : ReceivePhase) :
    Spares m id (m.receive id c ch purpose phase) := by
  have hself : Spares m id m := .of_chains rfl
  cases phase with
  | check => exact hself.setSelf _
  | parked =>
    simp only [Machine.receive]
    split_ifs
    · exact Spares.setSelf (.of_chains rfl) _
    · exact hself
  | attempt | drain =>
    simp only [Machine.receive]
    cases ht : m.take? id c ch purpose with
    | some m' => exact spares_take? ht
    | none => exact hself.setSelf _
  | offer =>
    simp only [Machine.receive]
    cases ht : m.take? id c ch purpose with
    | some m' => exact spares_take? ht
    | none =>
      dsimp only
      split_ifs
      · exact hself
      · exact Spares.setSelf (.of_chains rfl) _

lemma spares_launch (c : Chain) (task : TaskId) (callee : Callee) :
    Spares m id (m.launch id c task callee) := by
  rw [launch]
  split
  · exact Spares.setSelf (fun _ _ _ he => .inl (chain?_addChain_of_some he (.ofTask task callee))) _
  · exact Spares.setSelf (.of_chains rfl) _

lemma spares_join (c : Chain) (chains : List ChainId) : Spares m id (m.join id c chains) := by
  have hself : Spares m id m := .of_chains rfl
  cases chains with
  | cons y rest =>
    simp only [join]
    split_ifs
    · exact hself.setSelf _
    · exact hself
  | nil =>
    simp only [join]
    split
    · exact hself.setSelf _
    · exact Spares.setSelf (.of_chains rfl) _

lemma spares_stepChain (c : Chain) (step : Op Chain) : Spares m id (m.stepChain id c step) := by
  rw [stepChain_eq]
  cases step m.store <;> exact Spares.setSelf (.of_chains rfl) _

/-- A step of one chain spares the others. -/
theorem spares_run (m : Machine) (id : ChainId) : Spares m id (m.step (.run id)) := by
  have hself : Spares m id m := .of_chains rfl
  simp only [step, run]
  cases hc : m.chain? id with
  | none => exact hself
  | some c =>
    dsimp only
    cases hs : c.stage
    all_goals dsimp only
    case send ch v phase => exact spares_send c ch v phase
    case receive ch purpose phase => exact spares_receive c ch purpose phase
    case pause => exact hself.setSelf _
    case sleep =>
      simp only [wake]
      split_ifs
      · exact hself.setSelf _
      · exact hself
    case launch task callee => exact spares_launch c task callee
    case join chains => exact spares_join c chains
    case exit | leave =>
      refine Spares.setSelf (.of_chains ?_) _
      simp only [record, retire]
      split <;> rfl
    case ended | lost => exact hself
    case spawn | withdraw | enlist => exact Spares.setSelf (.of_chains rfl) _
    all_goals
      simp only [Chain.advance, hs]
      exact spares_stepChain c _

theorem spares_seeClosed (m : Machine) (id : ChainId) : Spares m id (m.step (.seeClosed id)) := by
  have hself : Spares m id m := .of_chains rfl
  simp only [step, seeClosed]
  cases hc : m.chain? id with
  | none => exact hself
  | some c =>
    dsimp only
    split
    case h_1 | h_2 =>
      split_ifs
      · exact hself.setSelf _
      · exact hself
    case h_3 => exact hself

/-- A chain that does not move itself stays as it is, or is parked and stirred by others. -/
theorem chain?_step_of_others {mv : Move} (hrun : mv ≠ .run x) (hsee : mv ≠ .seeClosed x)
    (hc : m.chain? x = some c) :
    (m.step mv).chain? x = some c ∨ ∃ d, (m.step mv).chain? x = some d ∧ Stirred c d := by
  cases mv with
  | run y => exact spares_run m y x c (fun h => hrun (h ▸ rfl)) hc
  | seeClosed y => exact spares_seeClosed m y x c (fun h => hsee (h ▸ rfl)) hc
  | pass microseconds => exact .inl hc

/-- A chain that is busy with no channel waits for its own turn. -/
theorem chain?_step_of_ne {mv : Move} (hrun : mv ≠ .run x) (hc : m.chain? x = some c)
    (hsend : ∀ ch v phase, c.stage ≠ .send ch v phase)
    (hreceive : ∀ ch purpose phase, c.stage ≠ .receive ch purpose phase) :
    (m.step mv).chain? x = some c := by
  by_cases hsee : mv = .seeClosed x
  · subst hsee
    simp only [step, seeClosed, hc]
    split
    case h_1 hs => exact absurd hs (hsend _ _ _)
    case h_2 hs => exact absurd hs (hreceive _ _ _)
    case h_3 => exact hc
  · rcases chain?_step_of_others hrun hsee hc with hd | ⟨d, -, hd⟩
    · exact hd
    · cases hd with
      | resend hs | relieved hs => exact absurd hs (hsend _ _ _)
      | retry hs | served hs => exact absurd hs (hreceive _ _ _)

lemma chain?_step_of_stage {mv : Move} {stage : Stage} (hrun : mv ≠ .run x)
    (hc : m.chain? x = some c)
    (hs : c.stage = stage)
    (hsend : ∀ ch v phase, stage ≠ .send ch v phase := by intro _ _ _ h; cases h)
    (hreceive : ∀ ch purpose phase, stage ≠ .receive ch purpose phase := by
      intro _ _ _ h; cases h) :
    (m.step mv).chain? x = some c :=
  chain?_step_of_ne hrun hc (hs ▸ hsend) (hs ▸ hreceive)

end Machine

end Flowgraph
