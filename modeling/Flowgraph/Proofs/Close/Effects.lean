import Flowgraph.Proofs.Close.Deeds
import Flowgraph.Proofs.Upkeep.Advance

/-!
# What a move does on a channel

A move is judged from the point of view of one channel: it does nothing there, or one chain does
something, or a value passes from one chain to another. All other chains are silent, which means
that they are what they were, or go on with what concerns the channel in no other way than to
wait.
-/

namespace Flowgraph

/-! ### Contents of channels -/

namespace Store

variable {s s' : Store} {ch ch' : ChannelId} {f : Channel → Channel}

lemma size_updateChannel : (s.updateChannel ch f).channels.size = s.channels.size :=
  Array.size_modify

lemma channel_updateChannel (h : ch.index < s.channels.size) :
    (s.updateChannel ch f).channel ch = f (s.channel ch) := by
  simp only [channel, updateChannel, Array.getElem?_modify, if_true,
    Array.getElem?_eq_getElem h, Option.map_some, Option.getD_some]

lemma channel_updateChannel_of_ne (h : ch ≠ ch') :
    (s.updateChannel ch' f).channel ch = s.channel ch := by
  have hne : ch'.index ≠ ch.index := fun he => h (by cases ch; cases ch'; simp_all)
  simp only [channel, updateChannel, Array.getElem?_modify, if_neg hne]

/-- There is no such channel yet. -/
lemma channel_of_size_le (h : s.channels.size ≤ ch.index) : s.channel ch = {} := by
  rw [channel, Array.getElem?_eq_none h]
  rfl

lemma channel_newChannel (capacity : Nat) (ch : ChannelId) :
    (s.newChannel capacity).2.channel ch =
      if ch.index = s.channels.size then { capacity := capacity } else s.channel ch := by
  simp only [channel, newChannel, Array.getElem?_push]
  split_ifs <;> rfl

/-- The channel becomes what it may become when that is done on it. As long as it does not exist,
nothing can be done on it, but it may be created. -/
structure Changes (s : Store) (ch : ChannelId) (ds : List Deed) (s' : Store) : Prop where
  size : s.channels.size ≤ s'.channels.size
  does : ch.index < s.channels.size → (s.channel ch).Does ds (s'.channel ch)
  begun : s.channels.size ≤ ch.index →
    s'.channel ch = {} ∨ ∃ capacity, s'.channel ch = { capacity := capacity }

/-- Something is done that does not change the channel. -/
lemma changes_self {ds : List Deed} (h : (s.channel ch).Does ds (s.channel ch)) :
    s.Changes ch ds s :=
  ⟨Nat.le_refl _, fun _ => h, fun hle => .inl (channel_of_size_le hle)⟩

lemma changes_refl (s : Store) (ch : ChannelId) : s.Changes ch [] s := changes_self (.nothing _)

lemma changes_updateChannel {ds : List Deed} (h : (s.channel ch).Does ds (f (s.channel ch))) :
    s.Changes ch ds (s.updateChannel ch f) := by
  refine ⟨Nat.le_of_eq size_updateChannel.symm, fun hlt => ?_, fun hle => .inl ?_⟩
  · rw [channel_updateChannel hlt]
    exact h
  · exact channel_of_size_le (size_updateChannel.symm ▸ hle)

lemma changes_updateChannel_of_ne (h : ch ≠ ch') : s.Changes ch [] (s.updateChannel ch' f) := by
  have hchannel := channel_updateChannel_of_ne (s := s) (f := f) h
  refine ⟨Nat.le_of_eq size_updateChannel.symm, fun _ => ?_, fun hle => .inl ?_⟩
  · rw [hchannel]
    exact .nothing _
  · rw [hchannel, channel_of_size_le hle]

/-- Nothing that follows changes the channels. -/
lemma Changes.of_channels {ds : List Deed} {t : Store} (h : s.Changes ch ds s')
    (ht : t.channels = s'.channels) : s.Changes ch ds t := by
  have hchannel : t.channel ch = s'.channel ch := by rw [channel, channel, ht]
  exact ⟨by rw [ht]; exact h.size, by rw [hchannel]; exact h.does, by rw [hchannel]; exact h.begun⟩

lemma Changes.newChannel (h : s.Changes ch [] s') (capacity : Nat) :
    s.Changes ch [] (s'.newChannel capacity).2 := by
  have hsize : s'.channels.size ≤ (s'.newChannel capacity).2.channels.size := by
    rw [Store.newChannel, Array.size_push]
    exact Nat.le_succ _
  refine ⟨Nat.le_trans h.size hsize, fun hlt => ?_, fun hle => ?_⟩
  · rw [channel_newChannel, if_neg (Nat.ne_of_lt (Nat.lt_of_lt_of_le hlt h.size))]
    exact h.does hlt
  · rw [channel_newChannel]
    split_ifs
    · exact .inr ⟨capacity, rfl⟩
    · exact h.begun hle

/-- Chains by themselves leave channels alone, unless they close one. -/
lemma robust_changes (s : Store) (ch : ChannelId) : Robust (s.Changes ch []) where
  plain _ _ := trivial
  fresh _ _ := ⟨trivial, trivial⟩
  element _ _ _ _ _ _ := trivial
  entry _ _ _ _ _ := ⟨trivial, trivial⟩
  newBlock _ _ hs _ := hs.of_channels rfl
  newDict _ _ hs _ _ := hs.of_channels rfl
  insertEntry _ _ _ _ hs _ _ := hs.of_channels rfl
  newChannel _ capacity hs := hs.newChannel capacity
  writeLine _ _ hs := hs.of_channels rfl
  setSlot _ _ _ _ hs := hs.of_channels rfl
  withFrame _ _ _ hs := hs.of_channels rfl

lemma settable_changes (s : Store) (ch : ChannelId) : Settable (s.Changes ch []) fun _ => True :=
  fun _ _ _ _ hs _ _ => hs.of_channels rfl

end Store

/-! ### Silent chains -/

namespace Chain

/-- A chain sends on a channel and is past looking whether the channel is closed. -/
def Late (ch : ChannelId) (c : Chain) : Prop :=
  ∃ v phase, c.stage = .send ch v phase ∧ phase ≠ .check

end Chain

/-- The channel that an operation is under way on. -/
def Stage.channel? : Stage → Option ChannelId
  | .send ch _ _ | .receive ch _ _ => some ch
  | _ => none

lemma Stage.deed?_self (ch : ChannelId) (closes : Bool) (stage : Stage) :
    stage.deed? ch closes stage = none := by
  cases stage <;> rfl

/-- Whoever is not busy with a channel does nothing on it. -/
lemma Stage.deed?_of_channel? {ch : ChannelId} {stage : Stage} (h : stage.channel? ≠ some ch)
    (next : Stage) : stage.deed? ch false next = none := by
  cases stage with
  | send ch' v phase =>
    have hne : ch' ≠ ch := fun he => h (congrArg some he)
    cases next with
    | exit outcome => cases outcome <;> exact if_neg hne
    | follow => exact if_neg hne
    | _ => rfl
  | receive ch' purpose phase =>
    have hne : ch' ≠ ch := fun he => h (congrArg some he)
    cases next with
    | received purpose v => exact if_neg hne
    | _ => rfl
  | walk =>
    cases next with
    | exit outcome => cases outcome <;> rfl
    | _ => rfl
  | _ => rfl

namespace Machine

variable {m m' m'' : Machine} {ch ch' : ChannelId} {x y z : ChainId} {c c' d : Chain}

/-- The change of a chain is nothing that is done on the channel. While the channel is closed, no
chain gets past looking whether it is. -/
structure Quiet (m : Machine) (ch : ChannelId) (c c' : Chain) : Prop where
  deed : Stage.deed? ch (c.closing? m.program m.store = some ch) c.stage c'.stage = none
  late : c'.Late ch → (m.store.channel ch).closed = true → c.Late ch
  drains : ∀ purpose, c'.stage = .receive ch purpose .drain → (m.store.channel ch).closed = true
  stays : ∀ v phase, c.stage = .send ch v phase → ∃ phase', c'.stage = .send ch v phase'

/-- A chain does nothing on the channel while one machine becomes another. -/
inductive Silent (m m' : Machine) (ch : ChannelId) (x : ChainId) : Prop
  | same (h : m'.chain? x = m.chain? x)
  | quiet {c c' : Chain} (hc : m.chain? x = some c) (hc' : m'.chain? x = some c')
    (h : m.Quiet ch c c')
  | begun (hc : m.chain? x = none) (h : ∀ c', m'.chain? x = some c' → c'.stage.Fresh)

lemma Silent.of_eq (h : Silent m m' ch x) (he : m''.chain? x = m'.chain? x) :
    Silent m m'' ch x := by
  cases h with
  | same h => exact .same (he.trans h)
  | quiet hc hc' h => exact .quiet hc (he.trans hc') h
  | begun hc h => exact .begun hc (he ▸ h)

lemma deed?_eq (hc : m.chain? x = some c) (hc' : m'.chain? x = some c') : m.deed? m' ch x =
    Stage.deed? ch (c.closing? m.program m.store = some ch) c.stage c'.stage := by
  simp only [deed?, hc, hc', bind, Option.bind]

lemma Silent.deed (h : Silent m m' ch x) : m.deed? m' ch x = none := by
  cases h with
  | same h =>
    cases hc : m.chain? x with
    | none => simp only [deed?, hc, bind, Option.bind]
    | some c => rw [deed?_eq hc (h.trans hc), Stage.deed?_self]
  | quiet hc hc' h => rw [deed?_eq hc hc', h.deed]
  | begun hc _ => simp only [deed?, hc, bind, Option.bind]

lemma closing?_of_stage (h : c.stage ≠ .walk) : c.closing? m.program m.store = none := by
  simp only [Chain.closing?]
  split
  case h_1 hs _ => exact absurd hs h
  case h_2 => rfl

/-- A chain that is busy elsewhere. -/
lemma Quiet.away (hs : c.stage.channel? ≠ some ch)
    (hclose : c.closing? m.program m.store ≠ some ch)
    (hs' : c'.stage.Fresh ∨ c'.stage.channel? ≠ some ch) : m.Quiet ch c c' where
  deed := by
    rw [decide_eq_false hclose]
    exact Stage.deed?_of_channel? hs _
  late := by
    rintro ⟨v, phase, hsend, hphase⟩
    rw [hsend] at hs'
    exact absurd rfl (hs'.resolve_left hphase)
  drains purpose hdrain := by
    rw [hdrain] at hs'
    rcases hs' with hfresh | hne
    · cases hfresh
    · exact absurd rfl hne
  stays v phase hsend := by
    rw [hsend] at hs
    exact absurd rfl hs

lemma Quiet.sending {v : Value} {phase : SendPhase} (hs : c.stage = .send ch' v phase)
    (next : SendPhase) (h : phase = .check → (m.store.channel ch').closed = false) :
    m.Quiet ch c { c with stage := .send ch' v next } where
  deed := by
    rw [hs]
    rfl
  late := by
    rintro ⟨w, phase', hsend, -⟩ hclosed
    cases hsend
    refine ⟨v, phase, hs, fun hcheck => ?_⟩
    simp [h hcheck] at hclosed
  drains purpose hdrain := by cases hdrain
  stays w phase' hsend := by
    rw [hs] at hsend
    cases hsend
    exact ⟨next, rfl⟩

lemma Quiet.receiving {purpose : Purpose} {phase : ReceivePhase}
    (hs : c.stage = .receive ch' purpose phase) (next : ReceivePhase)
    (h : next = .drain → (m.store.channel ch').closed = true) :
    m.Quiet ch c { c with stage := .receive ch' purpose next } where
  deed := by
    rw [hs]
    rfl
  late := by
    rintro ⟨v, phase', hsend, -⟩
    cases hsend
  drains purpose' hdrain := by
    cases hdrain
    exact h rfl
  stays v phase' hsend := by
    simp [hs] at hsend

/-! ### Effects -/

/-- What is done on a channel while one machine becomes another. -/
inductive Effect (m m' : Machine) (ch : ChannelId) : List Deed → Prop
  | quiet (h : ∀ z, Silent m m' ch z) : Effect m m' ch []
  | single {x : ChainId} {c c' : Chain} {d : Deed} (hc : m.chain? x = some c)
    (hc' : m'.chain? x = some c') (hd : m.deed? m' ch x = some d)
    (hlate : d.sent?.isSome = true → c.Late ch) (hs' : c'.stage.channel? = none)
    (h : ∀ z, z ≠ x → Silent m m' ch z) : Effect m m' ch [d]
  | pass {x y : ChainId} {c c' d d' : Chain} {v : Value} (hxy : x ≠ y)
    (hc : m.chain? x = some c) (hc' : m'.chain? x = some c')
    (hd : m.chain? y = some d) (hd' : m'.chain? y = some d')
    (hx : m.deed? m' ch x = some (.sent v)) (hy : m.deed? m' ch y = some (.received (some v)))
    (hlate : c.Late ch) (hs' : c'.stage.channel? = none) (ht' : d'.stage.channel? = none)
    (h : ∀ z, z ≠ x → z ≠ y → Silent m m' ch z) :
    Effect m m' ch [.sent v, .received (some v)]

/-- The deeds of a move are those of the chains. -/
lemma Effect.deeds {mv : Move} {ds : List Deed} (h : Effect m (m.step mv) ch ds) :
    m.deeds ch (.move mv) = ds := by
  have hfilter : ∀ {p : Deed → Bool} {z}, m.deed? (m.step mv) ch z = none →
      (m.deed? (m.step mv) ch z).filter p = none := fun hz => by rw [hz]; rfl
  rw [Machine.deeds]
  cases h with
  | quiet h =>
    rw [collect_none fun z => hfilter (h z).deed, collect_none fun z => hfilter (h z).deed]
    rfl
  | @single x c c' d hc _ hd _ _ h =>
    rw [collect_single hc fun z hz => hfilter (h z hz).deed,
      collect_single hc fun z hz => hfilter (h z hz).deed, hd]
    cases d <;> rfl
  | @pass x y c c' d d' v hxy hc _ hd _ hx hy _ _ _ h =>
    rw [collect_single hc, collect_single hd, hx, hy]
    · rfl
    · intro z hz
      by_cases hzx : z = x
      · rw [hzx, hx]
        rfl
      · exact hfilter (h z hzx hz).deed
    · intro z hz
      by_cases hzy : z = y
      · rw [hzy, hy]
        rfl
      · exact hfilter (h z hz hzy).deed

end Machine

end Flowgraph
