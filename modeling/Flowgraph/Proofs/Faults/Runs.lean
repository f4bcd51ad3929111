import Mathlib.Tactic.Common
import Mathlib.Tactic.IntervalCases
import Flowgraph.Proofs.Faults.Operation
import Flowgraph.Proofs.Locality
import Flowgraph.Proofs.Loops.Visits

/-!
# Nodes that fail change nothing

A chain performs a node in one step of its own. If it sends, more steps follow until the value has
been handed over, and others may act in between. When the chain stops before it has left the node,
none of its own steps has changed anything that was there, and no task has been started.
-/

namespace Flowgraph

/-- An operation that leaves a value to be sent has only looked. -/
lemma Program.perform_sending {p : Program} {f : FrameId} {id : NodeId} {s s' : Store}
    {ch : ChannelId} {v : Value} (h : p.perform f id s = .ok (.send ch v) s') : s' = s := by
  have hfits := (fits_perform : Op.Keeps _ _ (p.perform f id) _) s trivial
  rw [h] at hfits
  obtain ⟨-, n, hn, hk : n.kind = .send⟩ := hfits
  have hsend : p.perform f id = (liftM (p.send f id) : Op Pending) := by
    rw [perform, hn]
    show p.operation f id n.kind = _
    rw [hk]
    rfl
  rw [hsend] at h
  simp only [liftM, monadLift, MonadLift.monadLift, Op.read] at h
  split at h
  · cases h
    rfl
  · cases h

namespace Machine

variable {m m' m'' : Machine} {x : ChainId} {id : NodeId} {n : Node} {c : Chain} {mv : Move}

/-- The store of one machine is intact in the other. No task number has been given out, and no task
has been started. -/
structure Unharmed (m m' : Machine) : Prop where
  store : m.store.Intact m'.store
  launcher : m'.launcher = m.launcher
  chains : m'.chains.size = m.chains.size

namespace Unharmed

lemma trans (h : m.Unharmed m') (h' : m'.Unharmed m'') : m.Unharmed m'' where
  store := h.store.trans h'.store
  launcher := h'.launcher.trans h.launcher
  chains := h'.chains.trans h.chains

lemma of_store {s : Store} (h : m.store.Intact s) (x : ChainId) (c : Chain) :
    m.Unharmed ((m.mapStore fun _ => s).setChain x c) where
  store := h
  launcher := rfl
  chains := size_setChain

lemma refl (m : Machine) : m.Unharmed m := ⟨.refl _, rfl, rfl⟩

/-- Protocols that only tell chains how to go on do no harm. -/
lemma setChain {waiting : List ChainId} (x : ChainId) (c : Chain) :
    m.Unharmed ({ m with waiting := waiting }.setChain x c) where
  store := .refl _
  launcher := rfl
  chains := size_setChain

end Unharmed

/-! ### Being at work -/

/-- A chain is at work on a node: it is about to perform it, or to hand over the value that the node
sends. -/
def Busy (m : Machine) (x : ChainId) (id : NodeId) : Prop :=
  ∃ c w rest, m.chain? x = some c ∧ c.walks = w :: rest ∧ w.node = some id ∧
    (c.stage = .walk ∨ ∃ ch v phase, c.stage = .send ch v phase)

/-- A chain has been stopped: it is about to end early, or it will never come to its end. -/
def Halted (m : Machine) (x : ChainId) : Prop :=
  ∃ c, m.chain? x = some c ∧ (c.stage = .lost ∨ ∃ e, c.stage = .exit (.error e))

/-- The moves of a chain while all others rest. -/
inductive Own (x : ChainId) : Move → Prop
  | run : Own x (.run x)
  | seeClosed : Own x (.seeClosed x)
  | pass (microseconds : Nat) : Own x (.pass microseconds)

/-- A chain that is done with its node is not at work on it any more. -/
lemma stage_of_busy_or_halted (h : m.Busy x id ∨ m.Halted x) (hc : m.chain? x = some c) :
    c.stage = .walk ∨ (∃ ch v phase, c.stage = .send ch v phase) ∨ c.stage = .lost ∨
      ∃ e, c.stage = .exit (.error e) := by
  rcases h with ⟨d, w, rest, hd, -, -, hs⟩ | ⟨d, hd, hs⟩
  · rw [hc] at hd
    cases hd
    rcases hs with hs | hs
    · exact .inl hs
    · exact .inr (.inl hs)
  · rw [hc] at hd
    cases hd
    exact .inr (.inr hs)

/-! ### One step -/

/-- The step in which the node is performed. -/
lemma unharmed_walk {w : Walk} {rest : List Walk} (hc : m.chain? x = some c)
    (hs : c.stage = .walk) (hw : c.walks = w :: rest) (hnode : w.node = some id)
    (hn : m.program.node id = .ok n) (hk : n.kind.isSparing = true)
    (h : (m.run x).Busy x id ∨ (m.run x).Halted x) : m.Unharmed (m.run x) := by
  have ha : c.advance m.program = some (c.walk m.program) := by
    simp only [Chain.advance, hs]
  rw [run_of_advance hc ha, stepChain_eq] at h ⊢
  simp only [Chain.walk, hw, hnode, Op.bind_apply] at h ⊢
  cases hp : m.program.perform w.activation.frame id m.store with
  | error e s =>
    exact .of_store (Program.intact_of_perform_error hn hk hp) x _
  | ok pending s =>
    rw [hp] at h
    -- Only a sender goes on without leaving the node.
    have hd := stage_of_busy_or_halted h (chain?_setChain_self (m := m.mapStore fun _ => s) hc)
    cases pending with
    | send ch v =>
      rw [Program.perform_sending hp]
      exact .of_store (.refl _) x _
    | _ =>
      rcases hd with hd | ⟨_, _, _, hd⟩ | hd | ⟨_, hd⟩ <;> cases hd

/-- A sender that has not handed over its value has changed nothing. -/
lemma unharmed_send {ch : ChannelId} {v : Value} {phase : SendPhase} (hc : m.chain? x = some c)
    (hw : c.walks ≠ []) (h : (m.send x c ch v phase).Busy x id ∨ (m.send x c ch v phase).Halted x) :
    m.Unharmed (m.send x c ch v phase) := by
  cases phase with
  | check =>
    simp only [send]
    split_ifs
    · exact .setChain x _
    · exact .setChain x _
  | offer =>
    cases hg : m.give? x c ch v with
    | some m' =>
      have hlt : x.index < m.chains.size := (Array.getElem?_eq_some_iff.mp hc).1
      simp only [send, hg] at h
      have hd := stage_of_busy_or_halted h (chain?_give? hlt hg)
      have hempty : c.walks.isEmpty = false := by simpa using hw
      simp [Chain.proceed, hempty] at hd
    | none =>
      simp only [send, hg]
      split_ifs
      · exact .refl m
      · exact .setChain x _
  | parked =>
    simp only [send]
    split_ifs
    · exact .setChain x _
    · exact .refl m

lemma unharmed_seeClosed (m : Machine) (x : ChainId) : m.Unharmed (m.seeClosed x) := by
  simp only [seeClosed]
  split
  · exact .refl m
  · split
    · split_ifs
      · exact .setChain x _
      · exact .refl m
    · split_ifs
      · exact .setChain x _
      · exact .refl m
    · exact .refl m

/-- A chain that is still at work on its node, or has been stopped there, has changed nothing. -/
lemma unharmed_step (hbusy : m.Busy x id) (hn : m.program.node id = .ok n)
    (hk : n.kind.isSparing = true) (hmv : Own x mv)
    (h : (m.step mv).Busy x id ∨ (m.step mv).Halted x) : m.Unharmed (m.step mv) := by
  obtain ⟨c, w, rest, hc, hw, hnode, hs⟩ := hbusy
  cases hmv with
  | run =>
    rcases hs with hs | ⟨ch, v, phase, hs⟩
    · exact unharmed_walk hc hs hw hnode hn hk h
    · have hrun : m.run x = m.send x c ch v phase := by simp only [run, hc, hs]
      rw [step, hrun] at h ⊢
      exact unharmed_send hc (by simp [hw]) h
  | seeClosed => exact unharmed_seeClosed m x
  | pass microseconds => exact ⟨.refl _, rfl, rfl⟩

end Machine

/-! ### From the node to the fault -/

namespace Course

variable {C : Course} {x : ChainId} {id : NodeId} {n : Node} {t t₀ t₁ : Nat}

/-- At a time, a chain makes a move of its own. -/
def Moves (C : Course) (x : ChainId) (t : Nat) : Prop :=
  ∃ mv, Machine.Own x mv ∧ C.machine (t + 1) = (C.machine t).step mv

/-- A chain comes to a node at one time and is stopped there at a later one: it is at work on the
node all the time between them. -/
structure Fails (C : Course) (x : ChainId) (id : NodeId) (t₀ t₁ : Nat) : Prop where
  busy : ∀ t, t₀ ≤ t → t < t₁ → (C.machine t).Busy x id
  halted : (C.machine t₁).Halted x

lemma Fails.unharmed (h : C.Fails x id t₀ t₁) (hn : (C.machine t₀).program.node id = .ok n)
    (hk : n.kind.isSparing = true) (ht₀ : t₀ ≤ t) (ht₁ : t < t₁) (hown : C.Moves x t) :
    (C.machine t).Unharmed (C.machine (t + 1)) := by
  obtain ⟨mv, hmv, hstep⟩ := hown
  have hnode : (C.machine t).program.node id = .ok n := by rw [C.program t t₀, hn]
  have hnext : (C.machine (t + 1)).Busy x id ∨ (C.machine (t + 1)).Halted x := by
    rcases Nat.lt_or_ge (t + 1) t₁ with hlt | hge
    · exact .inl (h.busy (t + 1) (by omega) hlt)
    · have he : t + 1 = t₁ := by omega
      exact .inr (he ▸ h.halted)
  rw [hstep] at hnext ⊢
  exact Machine.unharmed_step (h.busy t ht₀ ht₁) hnode hk hmv hnext

/-- A node that fails changes nothing. Between the time at which a chain comes to the node and the
time at which it is stopped there, no move of its own changes a slot, an element, an entry, a
channel or the output, and none starts a task. If all others rest, everything is at last as it was
in the beginning. -/
theorem fails_unharmed (h : C.Fails x id t₀ t₁) (hle : t₀ ≤ t₁)
    (hn : (C.machine t₀).program.node id = .ok n) (hk : n.kind.isSparing = true) :
    (∀ t, t₀ ≤ t → t < t₁ → C.Moves x t → (C.machine t).Unharmed (C.machine (t + 1))) ∧
      ((∀ t, t₀ ≤ t → t < t₁ → C.Moves x t) → (C.machine t₀).Unharmed (C.machine t₁)) := by
  refine ⟨fun t ht₀ ht₁ hown => h.unharmed hn hk ht₀ ht₁ hown, fun hown => ?_⟩
  have hrun : ∀ k, t₀ + k ≤ t₁ → (C.machine t₀).Unharmed (C.machine (t₀ + k)) := by
    intro k
    induction k with
    | zero => exact fun _ => .refl _
    | succ k ih =>
      intro hk'
      have hlt : t₀ + k < t₁ := by omega
      exact (ih (by omega)).trans
        (h.unharmed hn hk (by omega) hlt (hown (t₀ + k) (by omega) hlt))
  have hlast := hrun (t₁ - t₀) (by omega)
  rwa [Nat.add_sub_cancel' hle] at hlast

/-- A program that sends on the channel in its only slot. -/
def sending : Program where
  graph := {
    globals := 1
    nodes := #[
      { kind := .ident, slot := some 0 },
      { kind := .basicLit, payload := some (.literal (.int 7)) },
      { kind := .send, children := [⟨0⟩, ⟨1⟩] }] }
  constants := #[none, some (.int 7), none]
  natives := .empty
  config := {}

/-- The channel has been closed before the chain comes to the node. -/
def sendingClosed : Course :=
  .ofMoves (((Machine.ofProgram sending true).mapStore fun s =>
    ((s.newChannel 1).2.updateChannel ⟨0⟩ fun ch => { ch with closed := true }).setSlot
      globalFrame 0 (.chan ⟨0⟩)).addChain (.atNode ⟨2⟩)).2 fun _ => .run ⟨0⟩

theorem fails_unharmed_closed : sendingClosed.Fails ⟨0⟩ ⟨2⟩ 0 2 ∧
    (sendingClosed.machine 0).Unharmed (sendingClosed.machine 2) := by
  have hfails : sendingClosed.Fails ⟨0⟩ ⟨2⟩ 0 2 := by
    refine ⟨fun t _ ht => ?_, ⟨_, rfl, .inr ⟨_, rfl⟩⟩⟩
    interval_cases t
    · exact ⟨_, _, _, rfl, rfl, rfl, .inl rfl⟩
    · exact ⟨_, _, _, rfl, rfl, rfl, .inr ⟨_, _, _, rfl⟩⟩
  exact ⟨hfails, (fails_unharmed hfails (by decide) rfl rfl).2 fun t _ _ => ⟨_, .run, rfl⟩⟩

end Course

end Flowgraph
