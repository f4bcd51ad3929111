import Mathlib.Tactic.Common
import Flowgraph.Proofs.Hands.Moves
import Flowgraph.Proofs.Spawn.Unfold

/-!
# Arguments are fixed when a task is spawned

What a task is called with is what the node that spawned it referred to at that moment, whatever is
done to the variables it was read from before the task is on its way. And once it is, only the task
itself writes to its frame, and activations whose frames link to it.
-/

namespace Flowgraph

open Named

namespace Machine

variable {m m' start : Machine} {x y z : ChainId} {mv : Move} {c d : Chain} {g : FrameId}
  {a b : Activation} {callee : Callee} {k : Progress} {n : Nat} {slots : Array Value}

/-! ### Frames of tasks that are on their way -/

/-- An activation of a chain is the only one in its frame, and no other is about to begin there. -/
structure Owns (m : Machine) (a : Activation) (y : ChainId) : Prop where
  inside : a.frame.index < m.store.frames.size
  chains : ∀ z c, m.chain? z = some c → c.Bears (fun _ => True)
    (fun b _ => b.frame = a.frame → z = y ∧ b = a) fun b => b.frame ≠ a.frame

/-- Activations that begin are in new frames. -/
lemma sources_new {p : Program} (P : Activation → Prop) : p.Sources (fun _ => True)
    (fun b _ => b.frame = g → P b) (fun b => b.frame ≠ g) fun s => g.index < s.frames.size where
  plain _ _ := trivial
  block _ := ⟨trivial, trivial⟩
  constant _ _ _ := trivial
  closure _ _ _ _ _ _ _ := trivial
  enter _ hne he := absurd he hne
  successor b id s hw := (ends_any _).mono fun _ _ => hw
  stable := Stable.of_frames fun s s' hs h => hs ▸ h
  settable := Settable.of_frames fun s s' hs h => hs ▸ h
  setSlot s f i v h := by
    rw [Store.setSlot, Array.size_modify]
    exact h
  close _ _ h := h
  begin s slots parent decl d h _ _ := by
    refine ⟨?_, ?_⟩
    · rw [Store.withFrame, Array.size_push]
      exact Nat.lt_succ_of_lt h
    · rintro rfl
      exact Nat.lt_irrefl _ h

lemma holds_any {V : Value → Prop} {s : Store} (h : ∀ v, V v) : s.Holds V :=
  ⟨fun _ v _ => h v, fun _ v _ => h v, fun _ _ _ => ⟨h _, h _⟩, fun _ v _ => h v⟩

lemma Owns.step (h : m.Owns a y) (hfit : m.Fits) (mv : Move) : (m.step mv).Owns a y := by
  have hands : ∀ P : Activation → Prop, m.program.Hands m.store
      (Store.Keeping (fun _ => True) fun s => a.frame.index < s.frames.size) (fun _ => True)
      (fun b _ => b.frame = a.frame → P b) fun b => b.frame ≠ a.frame := fun P =>
    (sources_new P).hands ⟨holds_any fun _ => trivial, h.inside⟩ (fun _ _ _ => trivial)
      fun _ _ _ _ _ => Reply.bears_any _
  constructor
  case inside => exact Nat.lt_of_lt_of_le h.inside (only_step hfit mv).size
  case chains =>
    intro z d hd
    cases hc : m.chain? z with
    | some c =>
      exact (h.chains z c hc).of_next (hands fun b => z = y ∧ b = a) (fun _ _ => trivial)
        (hfit z c hc) hc hd
    | none =>
      obtain ⟨z', c, t, callee, -, hc, hs, -, rfl⟩ := launched_of_step hc hd
      have hstage := (h.chains z' c hc).stage
      rw [hs] at hstage
      exact ⟨fun w hw => absurd hw List.not_mem_nil, hstage⟩

/-- Whoever writes to the frame of an activation is this activation, or is in a frame that links to
it. -/
def Guards (m : Machine) (y : ChainId) (a : Activation) : Prop :=
  ∀ mv i, (m.step mv).store.slot? a.frame i ≠ m.store.slot? a.frame i →
    ∃ z c w rest, mv = .run z ∧ m.chain? z = some c ∧ c.walks = w :: rest ∧
      (z = y ∧ w.activation = a ∨
        ∃ level, 1 ≤ level ∧ m.store.ancestor? w.activation.frame level = some a.frame)

lemma Owns.guards (h : m.Owns a y) (hfit : m.Fits) : m.Guards y a := by
  intro mv i hne
  obtain ⟨z, c, rfl, hc, hw⟩ : m.Writes mv a.frame i := by
    by_contra hw
    exact hne ((only_step hfit mv).slot a.frame i h.inside hw)
  have hself : ∀ {b : Activation} {node : Option NodeId} {depth : Nat} {rest : List Walk},
      c.walks = ⟨b, node, depth⟩ :: rest → a.frame = b.frame → z = y ∧ b = a := fun hwalks he =>
    (h.chains z c hc).walks _ (hwalks ▸ List.mem_cons_self) he.symm
  cases hw with
  | operation hwalks hn hcall hs hp =>
    refine ⟨z, c, _, _, rfl, hc, hwalks, ?_⟩
    rcases hp with hp | ⟨d, -, k, -, hlevel, -, hancestor⟩
    · exact .inl (hself hwalks hp)
    · exact .inr ⟨_, hlevel, hancestor⟩
  | results hwalks hn hs hslot hp hi => exact ⟨z, c, _, _, rfl, hc, hwalks, .inl (hself hwalks hp)⟩

/-! ### How a task stands -/

/-- A task has begun its function, or was refused because the function would be nested too deep. -/
def Begun (t : TaskId) (a : Activation) (c : Chain) : Prop :=
  c = { task := some t, walks := [⟨a, a.entry, 1⟩], stage := .walk } ∨
    ∃ limit, c = { task := some t, stage := .exit (.error (.fault (.stackOverflow limit))) }

lemma Begun.ne_send {t : TaskId} (h : Begun t a c) (ch : ChannelId) (v : Value)
    (phase : SendPhase) : c.stage ≠ .send ch v phase := by
  rcases h with rfl | ⟨limit, rfl⟩ <;> exact fun h => by cases h

lemma Begun.ne_receive {t : TaskId} (h : Begun t a c) (ch : ChannelId) (purpose : Purpose)
    (phase : ReceivePhase) : c.stage ≠ .receive ch purpose phase := by
  rcases h with rfl | ⟨limit, rfl⟩ <;> exact fun h => by cases h

lemma Begun.bears {t : TaskId} (h : Begun t a c) : c.Bears (fun _ => True)
    (fun b _ => b.frame = a.frame → y = y ∧ b = a) fun b => b.frame ≠ a.frame := by
  rcases h with rfl | ⟨limit, rfl⟩
  · refine ⟨fun w hw _ => ?_, trivial⟩
    rw [List.mem_singleton.mp hw]
    exact ⟨rfl, rfl⟩
  · exact ⟨fun w hw => absurd hw List.not_mem_nil, trivial⟩

/-- How a spawned task stands, and what is in its frame. -/
inductive Stands (a : Activation) (x : ChainId) (slots : Array Value) (m : Machine) :
    Progress → Prop
  /-- The frame is hidden, and nobody has begun the function. -/
  | held {k : Progress} {z : ChainId} {c : Chain} (hc : Holder (.declared a) x m k z c)
    (hw : ∀ w ∈ c.walks, w.activation.frame ≠ a.frame) (hm : m.Conceals a.frame z)
    (hs : m.store.slots a.frame = slots) : Stands a x slots m k
  /-- The frame is hidden, and the task is at the first node. -/
  | begun {y : ChainId} {t : TaskId} {c : Chain} (hc : m.chain? y = some c) (hb : Begun t a c)
    (hm : m.Conceals a.frame y) (hs : m.store.slots a.frame = slots) (ho : m.Owns a y) :
    Stands a x slots m (.launched y 1)
  | later {y : ChainId} {n : Nat} (ho : m.Owns a y) : Stands a x slots m (.launched y (n + 2))
  /-- There will be no task. -/
  | refused : Stands a x slots m .refused

lemma Conceals.of_others (h : m.Conceals g z) (hstore : m'.store = m.store)
    (hchains : ∀ y d, y ≠ z → m'.chain? y = some d → m.chain? y = some d) : m'.Conceals g z where
  store := hstore ▸ h.store
  others y d hy hd := h.others y d hy (hchains y d hy hd)

lemma Conceals.setChain (h : m.Conceals g z) (c : Chain) : (m.setChain z c).Conceals g z :=
  h.of_others rfl fun _ _ hy hd => (chain?_setChain_of_ne hy).symm.trans hd

/-- A hidden frame is the task's own. -/
lemma Conceals.owns {t : TaskId} (h : m.Conceals a.frame y) (hc : m.chain? y = some c)
    (hb : Begun t a c) : m.Owns a y where
  inside := h.store.inside
  chains z d hd := by
    by_cases hz : z = y
    · subst hz
      rw [hc] at hd
      cases hd
      exact hb.bears
    · obtain ⟨hwalks, hstage⟩ := h.others z d hz hd
      refine ⟨fun w hw he => absurd he (hwalks w hw), ?_⟩
      exact hstage.mono fun _ _ => trivial

/-- Whoever holds the callee passes it on, or begins the function. -/
lemma Holder.stands (h : Holder (.declared a) x m k z c)
    (hw : ∀ w ∈ c.walks, w.activation.frame ≠ a.frame) (hm : m.Conceals a.frame z)
    (hs : m.store.slots a.frame = slots) :
    (m.step (.run z)).Stands a x slots (k.after x m (.run z)) := by
  cases h with
  | spawning hc hstage =>
    rw [after_spawning hc hstage, step_spawning hc hstage]
    refine .held (.launching (chain?_setChain_self (by exact hc)) rfl) hw ?_ hs
    exact hm.of_others rfl fun y d hy hd => (chain?_setChain_of_ne hy).symm.trans hd
  | @launching c t hc hstage =>
    by_cases hr : m.program.config.refusal? t.index = none
    · rw [after_launching hc hstage hr, step_grant hc hstage hr]
      refine .held (.ready (chain?_grant_nextChain hc)) (fun w hw => by cases hw) ?_ hs
      refine ⟨hm.store, fun y d hy hd => ?_⟩
      rcases of_chain?_grant hc hd with ⟨hyx, hd⟩ | ⟨rfl, rfl⟩ | ⟨rfl, rfl⟩
      · exact hm.others y d hyx hd
      · exact ⟨hw, trivial⟩
      · exact absurd rfl hy
    · rw [after_denied hc hstage hr]
      exact .refused
  | @ready y t hc =>
    rw [after_moved]
    rcases step_start hc rfl with hstep | ⟨limit, hstep⟩ <;> rw [hstep]
    · have hself : (m.setChain z ((Chain.ofTask t (.declared a)).enter a 1)).chain? z = some _ :=
        chain?_setChain_self hc
      have hconceals := hm.setChain ((Chain.ofTask t (.declared a)).enter a 1)
      exact .begun hself (.inl rfl) hconceals hs (hconceals.owns hself (.inl rfl))
    · have hself : (m.setChain z ((Chain.ofTask t (.declared a)).exit
          (.error (.fault (.stackOverflow limit))))).chain? z = some _ := chain?_setChain_self hc
      have hconceals := hm.setChain ((Chain.ofTask t (.declared a)).exit
        (.error (.fault (.stackOverflow limit))))
      exact .begun hself (.inr ⟨limit, rfl⟩) hconceals hs (hconceals.owns hself (.inr ⟨limit, rfl⟩))

/-- Whatever moves, the task stands as before, or has come further. -/
theorem Stands.step (hm : m.Sound) (hg : a.frame ≠ globalFrame) (h : m.Stands a x slots k)
    (mv : Move) :
    (m.step mv).Stands a x slots (k.after x m mv) := by
  cases h with
  | @held _ z c hc hw hconceals hs =>
    by_cases hmv : mv = .run z
    · subst hmv
      exact hc.stands hw hconceals hs
    · rw [hc.after_of_ne hmv]
      refine .held (hc.step_of_ne hmv) hw (hconceals.step hm hg (fun d ch v phase hd => ?_) hmv)
        ((hconceals.slots_step hm hmv).trans hs)
      rw [hc.chain?] at hd
      cases hd
      exact hc.ne_send ch v phase
  | @begun y t c hc hb hconceals hs ho =>
    by_cases hmv : mv = .run y
    · subst hmv
      rw [after_moved]
      exact .later (ho.step hm.fits _)
    · rw [Progress.after, if_neg hmv]
      refine .begun (chain?_step_of_ne hmv hc hb.ne_send hb.ne_receive) hb
        (hconceals.step hm hg (fun d ch v phase hd => ?_) hmv)
        ((hconceals.slots_step hm hmv).trans hs) (ho.step hm.fits _)
      rw [hc] at hd
      cases hd
      exact hb.ne_send ch v phase
  | @later y n ho =>
    by_cases hmv : mv = .run y
    · subst hmv
      rw [after_moved]
      exact .later (ho.step hm.fits _)
    · rw [Progress.after, if_neg hmv]
      exact .later (ho.step hm.fits _)
  | refused => exact .refused

/-! ### What the host does -/

lemma Holder.isEarly (h : Holder callee x m k z c) : k.isEarly := by
  cases h with
  | spawning | launching => exact trivial
  | ready => exact Nat.zero_le 1

lemma bears_hosted (hg : g ≠ globalFrame) (hc : c.Hosted) (P : Activation → Prop) :
    c.Bears (fun _ => True) (fun b _ => b.frame = g → P b) fun b => b.frame ≠ g := by
  cases hc with
  | atNode entry =>
    refine ⟨fun w hw he => ?_, trivial⟩
    rw [List.mem_singleton.mp hw] at he
    exact absurd he.symm hg
  | ofCall callee receiver args =>
    exact ⟨fun w hw => absurd hw List.not_mem_nil, trivial, fun _ _ => trivial, fun _ _ => trivial⟩
  | _ => exact ⟨fun w hw => absurd hw List.not_mem_nil, trivial⟩

lemma Conceals.addChain (h : m.Conceals g z) (hc : c.Misses g) : (m.addChain c).2.Conceals g z where
  store := h.store
  others y d hy hd := by
    rw [chain?_addChain_eq] at hd
    split_ifs at hd
    · cases hd
      exact hc
    · exact h.others y d hy hd

lemma Owns.addChain (h : m.Owns a y) (hg : a.frame ≠ globalFrame) (hc : c.Hosted) :
    (m.addChain c).2.Owns a y where
  inside := h.inside
  chains z d hd := by
    rw [chain?_addChain_eq] at hd
    split_ifs at hd
    · cases hd
      exact bears_hosted hg hc fun b => z = y ∧ b = a
    · exact h.chains z d hd

/-- The host may begin a chain that does not refer to the frame. -/
lemma Stands.addChain (h : m.Stands a x slots k) (hg : a.frame ≠ globalFrame) (hc : c.Hosted)
    (hmisses : k.isEarly → c.Misses a.frame) : (m.addChain c).2.Stands a x slots k := by
  cases h with
  | held hholder hw hm hs =>
    have hchain := chain?_addChain_of_some hholder.chain? c
    exact .held (hholder.of_chain? hchain) hw (hm.addChain (hmisses hholder.isEarly)) hs
  | begun hy hb hm hs ho =>
    have hconceals := hm.addChain (hmisses (Nat.le_refl 1))
    exact .begun (chain?_addChain_of_some hy c) hb hconceals hs (ho.addChain hg hc)
  | later ho => exact .later (ho.addChain hg hc)
  | refused => exact .refused

/-- The host may change the store, if it leaves the frame alone. -/
lemma Stands.change (h : m.Stands a x slots k) (hchains : m'.chains = m.chains)
    (hsize : m.store.frames.size ≤ m'.store.frames.size)
    (hearly : k.isEarly → m.store.Hides a.frame →
      m'.store.Hides a.frame ∧ m'.store.slots a.frame = m.store.slots a.frame) :
    m'.Stands a x slots k := by
  have hchain : ∀ y, m'.chain? y = m.chain? y := fun y => by rw [chain?, chain?, hchains]
  have hconceals : ∀ {y}, m.Conceals a.frame y → k.isEarly → m'.Conceals a.frame y := fun hm hk =>
    ⟨(hearly hk hm.store).1, fun y d hy hd => hm.others y d hy (hchain y ▸ hd)⟩
  have howns : ∀ {y}, m.Owns a y → m'.Owns a y := fun ho =>
    ⟨Nat.lt_of_lt_of_le ho.inside hsize, fun z c hc => ho.chains z c (hchain z ▸ hc)⟩
  cases h with
  | held hholder hw hm hs =>
    have hk := hholder.isEarly
    refine .held (hholder.of_chain? ?_) hw (hconceals hm hk) ((hearly hk hm.store).2.trans hs)
    rw [hchain]
    exact hholder.chain?
  | @begun y t c hy hb hm hs ho =>
    have hk : (Progress.launched y 1).isEarly := Nat.le_refl 1
    exact .begun ((hchain _).trans hy) hb (hconceals hm hk) ((hearly hk hm.store).2.trans hs)
      (howns ho)
  | later ho => exact .later (howns ho)
  | refused => exact .refused

/-- However things go on, the task stands somewhere on its way. -/
theorem Unfolds.stands (h : Unfolds x (.declared a) start k m) (hsound : start.Sound)
    (hg : a.frame ≠ globalFrame) (hstart : start.Stands a x slots .held) :
    m.Stands a x slots k := by
  induction h with
  | start => exact hstart
  | move h mv ih => exact ih.step (h.sound hsound) hg mv
  | host _ hc hmentions ih =>
    exact ih.addChain hg hc fun hk => Chain.misses_of_mentions (hmentions hk a rfl)
  | change _ hs hhides ih => exact ih.change rfl (hs .frames) fun hk _ => hhides hk a rfl
  | takeFaults _ ih => exact ih.change rfl (Nat.le_refl _) fun _ hh => ⟨hh, rfl⟩

end Machine

end Flowgraph
