import Flowgraph.Proofs.Close.Final

/-!
# Channels as bounded queues

A channel neither loses, duplicates nor reorders values, and never buffers more of them than it may:
at every moment, what has been received followed by what is buffered is what has been sent. An
unbuffered channel passes every value in a single act from one sender to one receiver.

`conserved_of_new` says so of every channel from its creation on, whatever its parties are and in
whatever order they go on.
-/

namespace Flowgraph

/-! ### At once -/

namespace Channel

variable {c c' : Channel} {ds : List Deed}

/-- Nothing else is done on a channel while it is being closed. -/
lemma Does.closing (h : c.Does ds c') {outcome : Except Stop Unit} (hd : .closed outcome ∈ ds) :
    ds = [.closed outcome] ∧ c'.buffer = c.buffer := by
  cases h
  case close hc =>
    cases List.mem_singleton.mp hd
    exact ⟨rfl, rfl⟩
  case closeAgain hc =>
    cases List.mem_singleton.mp hd
    exact ⟨rfl, rfl⟩
  all_goals simp at hd

/-- What is sent on an unbuffered channel is received at once. -/
lemma Does.handover (h : c.Does ds c') (hcap : c.capacity = 0) {v : Value} (hd : .sent v ∈ ds) :
    ds = [.sent v, .received (some v)] := by
  cases h
  case push hroom w =>
    have hlt : c.buffer.length < c.capacity := of_decide_eq_true hroom
    rw [hcap] at hlt
    exact absurd hlt (Nat.not_lt_zero _)
  case pass w =>
    simp only [List.mem_cons, Deed.sent.injEq, reduceCtorEq, List.not_mem_nil, or_self,
      or_false] at hd
    rw [hd]
  all_goals simp at hd

end Channel

namespace Machine

variable {m m' : Machine} {ch : ChannelId} {x y : ChainId} {acts : List Act}

/-! ### The parties of a handover -/

/-- A value goes from one chain to another, and all other chains do nothing on the channel. -/
structure Handover (m m' : Machine) (ch : ChannelId) (v : Value) (x y : ChainId) : Prop where
  distinct : x ≠ y
  gives : m.deed? m' ch x = some (.sent v)
  takes : m.deed? m' ch y = some (.received (some v))
  /-- The receiver goes on with the value. -/
  holds : ∃ d purpose, m'.chain? y = some d ∧ d.stage = .received purpose (some v)
  others : ∀ z, z ≠ x → z ≠ y → m.deed? m' ch z = none

lemma stage_of_received {closes : Bool} {stage next : Stage} {v : Option Value}
    (h : Stage.deed? ch closes stage next = some (.received v)) :
    ∃ purpose, next = .received purpose v := by
  simp only [Stage.deed?] at h
  split at h
  case h_4 purpose v' =>
    split_ifs at h
    cases h
    exact ⟨purpose, rfl⟩
  all_goals first | cases h | (split_ifs at h; cases h)

lemma Effect.handover {v : Value} (h : Effect m m' ch [.sent v, .received (some v)]) :
    ∃ x y, Handover m m' ch v x y := by
  cases h with
  | @pass x y c c' d d' _ hxy hc hc' hd hd' hx hy hlate hs' ht' h =>
    refine ⟨x, y, hxy, hx, hy, ?_, fun z hzx hzy => (h z hzx hzy).deed⟩
    rw [deed?_eq hd hd'] at hy
    obtain ⟨purpose, hs⟩ := stage_of_received hy
    exact ⟨d', purpose, hd', hs⟩

/-- What is sent on an unbuffered channel goes in one move from one chain to another. -/
lemma exists_handover (hsane : m.Sane) (hch : ch.index < m.store.channels.size)
    (hcap : (m.store.channel ch).capacity = 0) {a : Act} {v : Value}
    (hv : .sent v ∈ m.deeds ch a) :
    m.deeds ch a = [.sent v, .received (some v)] ∧ ∃ x y, Handover m (m.act a) ch v x y := by
  have hdeeds := ((changes_act hsane a ch).does hch).handover hcap hv
  refine ⟨hdeeds, ?_⟩
  cases a with
  | move mv =>
    obtain ⟨ds, heffect, -⟩ := does_step hsane mv ch
    rw [heffect.deeds] at hdeeds
    subst hdeeds
    exact heffect.handover
  | close ch' =>
    rw [deeds] at hv
    split_ifs at hv
    · cases List.mem_singleton.mp hv
    · cases hv
  | host | change => cases hv

/-! ### From its creation on -/

/-- A channel keeps what is sent on it, in its order, until it is received. -/
structure Conserved (m : Machine) (ch : ChannelId) : Prop where
  /-- What has been received, followed by what is buffered, is what has been sent. -/
  order : ∀ acts, (m.history ch acts).filterMap Deed.taken? ++
    ((m.after acts).store.channel ch).buffer = (m.history ch acts).filterMap Deed.sent?
  /-- No more is buffered than the channel was made for. -/
  room : ∀ acts, ((m.after acts).store.channel ch).buffer.length ≤ (m.store.channel ch).capacity
  /-- The length of the channel is what is buffered. -/
  len : ∀ acts f id,
    m.program.operand f id 1 (m.after acts).store = .ok (.chan ch) →
    m.program.len f id (m.after acts).store = m.program.setOwn f id
      (.ofNat ((m.after acts).store.channel ch).buffer.length) (m.after acts).store
  /-- An unbuffered channel buffers nothing. -/
  unbuffered : (m.store.channel ch).capacity = 0 →
    ∀ acts, ((m.after acts).store.channel ch).buffer = []
  /-- On an unbuffered channel, a send completes only by a handover to one receiver. -/
  handover : (m.store.channel ch).capacity = 0 → ∀ acts a v,
    .sent v ∈ (m.after acts).deeds ch a →
    (m.after acts).deeds ch a = [.sent v, .received (some v)] ∧
      ∃ x y, Handover (m.after acts) ((m.after acts).act a) ch v x y
  /-- A close, whether it succeeds or fails, changes nothing that is buffered. -/
  closing : ∀ acts a outcome, .closed outcome ∈ (m.after acts).deeds ch a →
    (((m.after acts).act a).store.channel ch).buffer = ((m.after acts).store.channel ch).buffer

lemma len_eq {p : Program} {f : FrameId} {id : NodeId} {s : Store}
    (h : p.operand f id 1 s = .ok (.chan ch)) :
    p.len f id s = p.setOwn f id (.ofNat (s.channel ch).buffer.length) s := by
  rw [Program.len, Op.look_bind_apply, h]
  dsimp only
  rw [Op.look_bind_apply]
  rfl

/-- A channel that an act creates is open and empty. -/
theorem exists_capacity_of_act (hsane : m.Sane) (a : Act)
    (hold : m.store.channels.size ≤ ch.index) :
    ∃ capacity, (m.act a).store.channel ch = { capacity := capacity } := by
  rcases (changes_act hsane a ch).begun hold with h | h
  · exact ⟨0, h⟩
  · exact h

/-- Every channel keeps what is sent on it: for every capacity, however many chains and hosts send,
receive, iterate, ask for its length and close it, and in whatever order they go on. -/
theorem conserved_of_new (p : Program) (kept : Bool) (before : List Act) (ch : ChannelId)
    (capacity : Nat) (hch : ch.index < ((ofProgram p kept).after before).store.channels.size)
    (hnew : ((ofProgram p kept).after before).store.channel ch = { capacity := capacity }) :
    ((ofProgram p kept).after before).Conserved ch := by
  generalize hm : (ofProgram p kept).after before = m at hch hnew ⊢
  have hsane : m.Sane := hm ▸ (sane_ofProgram p kept).after before
  have htrace := trace_history hsane hch
  have hlater : ∀ acts, ch.index < (m.after acts).store.channels.size := fun acts =>
    Nat.lt_of_lt_of_le hch (size_after hsane acts)
  constructor
  · intro acts
    have horder := (htrace acts).order
    rw [hnew] at horder
    exact horder.symm
  · intro acts
    rw [← (htrace acts).capacity]
    exact (hsane.after acts).room ch
  · exact fun acts f id h => len_eq h
  · intro hcap acts
    exact (hsane.after acts).buffer_eq_nil ((htrace acts).capacity.trans hcap)
  · intro hcap acts a v hv
    exact exists_handover (hsane.after acts) (hlater acts) ((htrace acts).capacity.trans hcap) hv
  · intro acts a outcome hd
    exact (((changes_act (hsane.after acts) a ch).does (hlater acts)).closing hd).2

/-- A host creates a channel. -/
def opening (capacity : Nat) : Act :=
  .change (fun s => (s.newChannel capacity).2) fun s => by
    refine ⟨by simp [Store.newChannel], fun ch => ?_⟩
    rw [Store.channel_newChannel]
    split_ifs with h
    · exact .inr ⟨Nat.le_of_eq h.symm, capacity, rfl⟩
    · exact .inl rfl

theorem conserved_of_opening : ∃ p, Program.load { globals := 0, nodes := #[] } .empty {} = .ok p ∧
    0 < ((ofProgram p true).after [opening 2]).store.channels.size ∧
    ((ofProgram p true).after [opening 2]).store.channel ⟨0⟩ = { capacity := 2 } ∧
    ((ofProgram p true).after [opening 2]).Conserved ⟨0⟩ :=
  ⟨_, rfl, Nat.zero_lt_one, rfl, conserved_of_new _ true [opening 2] ⟨0⟩ 2 Nat.zero_lt_one rfl⟩

end Machine

end Flowgraph
