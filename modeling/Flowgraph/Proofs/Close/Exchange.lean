import Flowgraph.Proofs.Close.Effects

/-!
# What an exchange does on a channel

A value goes into the buffer of a channel or comes out of it, or passes from one chain to another;
a send fails on a closed channel; a receive finds it drained. Whatever else happens in an exchange
is silent: chains begin to wait, and chains that wait are called to try again.
-/

namespace Flowgraph

namespace Machine

variable {m m' n : Machine} {ch ch' : ChannelId} {x y id : ChainId} {c c' d d' : Chain}

/-- What is done on a channel, while one machine becomes another, may be done there. -/
def Does (m m' : Machine) (ch : ChannelId) : Prop :=
  ∃ ds, Effect m m' ch ds ∧ m.store.Changes ch ds m'.store

/-- What holds of every machine that runs: only closed channels are being drained, and no channel
buffers more than it may. -/
structure Sane (m : Machine) : Prop where
  fits : m.Fits
  drains : ∀ x c ch purpose, m.chain? x = some c → c.stage = .receive ch purpose .drain →
    (m.store.channel ch).closed = true
  room : ∀ ch, (m.store.channel ch).buffer.length ≤ (m.store.channel ch).capacity

/-! ### One chain -/

lemma does_of_chains (hchains : m'.chains = m.chains) (hstore : m'.store = m.store)
    (ch : ChannelId) : m.Does m' ch := by
  refine ⟨[], .quiet fun z => .same ?_, hstore ▸ Store.changes_refl _ _⟩
  rw [chain?, chain?, hchains]

lemma chain?_setChain_of_chains (hchains : n.chains = m.chains) (hc : m.chain? x = some c) :
    (n.setChain x c').chain? x = some c' := by
  rw [chain?, ← hchains] at hc
  exact chain?_setChain_self hc

lemma silent_setChain (hchains : n.chains = m.chains) {z : ChainId} (hz : z ≠ x) :
    Silent m (n.setChain x c') ch z := by
  refine .same ?_
  rw [chain?_setChain_of_ne hz, chain?, chain?, hchains]

/-- One chain goes on silently. -/
lemma does_setChain (hchains : n.chains = m.chains) (hstore : m.store.Changes ch [] n.store)
    (hc : m.chain? x = some c) (h : m.Quiet ch c c') : m.Does (n.setChain x c') ch := by
  refine ⟨[], .quiet fun z => ?_, hstore⟩
  by_cases hz : z = x
  · subst hz
    exact .quiet hc (chain?_setChain_of_chains hchains hc) h
  · exact silent_setChain hchains hz

/-- A chain that comes to the end of what it did on one channel does nothing on another. -/
lemma quiet_elsewhere (hs : c.stage.channel? = some ch') (hs' : c'.stage.channel? = none)
    (hch : ch ≠ ch') : m.Quiet ch c c' := by
  refine .away ?_ ?_ (.inr ?_)
  · rw [hs]
    exact fun he => hch (Option.some.inj he).symm
  · rw [closing?_of_stage]
    · exact fun he => by cases he
    · intro hwalk
      rw [hwalk] at hs
      cases hs
  · simp [hs']

/-- One chain does something on the channel that it is busy with. -/
lemma does_single {e : Deed} (hc : m.chain? x = some c) (hc' : m'.chain? x = some c')
    (hs : c.stage.channel? = some ch') (hs' : c'.stage.channel? = none)
    (hd : ∀ closes, Stage.deed? ch' closes c.stage c'.stage = some e)
    (hlate : e.sent?.isSome = true → c.Late ch')
    (hall : ∀ ch z, z ≠ x → Silent m m' ch z) (hchanges : m.store.Changes ch' [e] m'.store)
    (helse : ∀ ch, ch ≠ ch' → m.store.Changes ch [] m'.store) (ch : ChannelId) :
    m.Does m' ch := by
  by_cases hch : ch = ch'
  · subst hch
    refine ⟨[e], .single hc hc' ?_ hlate hs' (hall ch), hchanges⟩
    rw [deed?_eq hc hc', hd]
  · refine ⟨[], .quiet fun z => ?_, helse ch hch⟩
    by_cases hz : z = x
    · subst hz
      exact .quiet hc hc' (quiet_elsewhere hs hs' hch)
    · exact hall ch z hz

/-- A value passes from one chain to another. -/
lemma does_pass {v : Value} (hxy : x ≠ y) (hc : m.chain? x = some c) (hc' : m'.chain? x = some c')
    (hd : m.chain? y = some d) (hd' : m'.chain? y = some d')
    (hs : c.stage.channel? = some ch') (hs' : c'.stage.channel? = none)
    (ht : d.stage.channel? = some ch') (ht' : d'.stage.channel? = none)
    (hx : ∀ closes, Stage.deed? ch' closes c.stage c'.stage = some (.sent v))
    (hy : ∀ closes, Stage.deed? ch' closes d.stage d'.stage = some (.received (some v)))
    (hlate : c.Late ch') (hall : ∀ ch z, z ≠ x → z ≠ y → Silent m m' ch z)
    (hstore : m'.store = m.store)
    (hdoes : (m.store.channel ch').Does [.sent v, .received (some v)] (m.store.channel ch'))
    (ch : ChannelId) : m.Does m' ch := by
  by_cases hch : ch = ch'
  · subst hch
    refine ⟨[.sent v, _], .pass hxy hc hc' hd hd' ?_ ?_ hlate hs' ht' (hall ch), ?_⟩
    · rw [deed?_eq hc hc', hx]
    · rw [deed?_eq hd hd', hy]
    · rw [hstore]
      exact Store.changes_self hdoes
  · refine ⟨[], .quiet fun z => ?_, hstore ▸ Store.changes_refl _ _⟩
    by_cases hzx : z = x
    · subst hzx
      exact .quiet hc hc' (quiet_elsewhere hs hs' hch)
    · by_cases hzy : z = y
      · subst hzy
        exact .quiet hd hd' (quiet_elsewhere ht ht' hch)
      · exact hall ch z hzx hzy

/-! ### Waiting chains -/

lemma open_of_firstWaiting? {α : Type} {test : Chain → Option α} {a : ChainId × Chain × α}
    (h : m.firstWaiting? ch test = some a) : (m.store.channel ch).closed = false := by
  simp only [firstWaiting?] at h
  split_ifs at h with hopen
  exact Bool.not_eq_true _ ▸ hopen

/-- Chains are what they were, but for one that is called to try again. -/
structure Calls (m m' : Machine) : Prop where
  chain : ∀ x c, m.chain? x = some c → ∃ c', m'.chain? x = some c'
  silent : ∀ ch z, Silent m m' ch z

lemma calls_of_chains (hchains : n.chains = m.chains) : Calls m n where
  chain x c hc := ⟨c, by rw [chain?, hchains]; exact hc⟩
  silent ch z := .same (by rw [chain?, chain?, hchains])

lemma calls_rouse (hchains : n.chains = m.chains) (hc : m.chain? x = some c)
    (h : ∀ ch, m.Quiet ch c c') : Calls m (n.rouse x c') where
  chain z d hd := by
    by_cases hz : z = x
    · subst hz
      exact ⟨c', chain?_setChain_of_chains hchains hd⟩
    · refine ⟨d, (chain?_setChain_of_ne hz).trans ?_⟩
      rw [chain?, hchains]
      exact hd
  silent ch z := by
    by_cases hz : z = x
    · subst hz
      exact .quiet hc (chain?_setChain_of_chains hchains hc) (h ch)
    · exact silent_setChain (n := { n with waiting := n.waiting.erase x }) hchains hz

lemma calls_callSender (hchains : n.chains = m.chains) (ch : ChannelId) :
    Calls m (n.callSender ch) := by
  simp only [callSender]
  split
  case h_1 y d v hy =>
    obtain ⟨hd, ht⟩ := of_firstWaiting? hy
    rw [chain?, hchains] at hd
    exact calls_rouse hchains hd fun _ =>
      .sending (of_offered? ht) _ fun h => SendPhase.noConfusion h
  case h_2 => exact calls_of_chains hchains

lemma calls_callReceiver (hchains : n.chains = m.chains) (ch : ChannelId) :
    Calls m (n.callReceiver ch) := by
  simp only [callReceiver]
  split
  case h_1 y d purpose hy =>
    obtain ⟨hd, ht⟩ := of_firstWaiting? hy
    rw [chain?, hchains] at hd
    exact calls_rouse hchains hd fun _ =>
      .receiving (of_wanted? ht) _ fun h => ReceivePhase.noConfusion h
  case h_2 => exact calls_of_chains hchains

@[simp] lemma store_callSender (m : Machine) (ch : ChannelId) :
    (m.callSender ch).store = m.store := by
  simp only [callSender]
  split <;> rfl

@[simp] lemma store_callReceiver (m : Machine) (ch : ChannelId) :
    (m.callReceiver ch).store = m.store := by
  simp only [callReceiver]
  split <;> rfl

/-! ### The exchange -/

lemma channel?_proceed (c : Chain) : c.proceed.stage.channel? = none := by
  simp only [Chain.proceed]
  split_ifs <;> rfl

lemma deed?_proceed {v : Value} {phase : SendPhase} (hs : c.stage = .send ch v phase)
    (closes : Bool) : Stage.deed? ch closes c.stage c.proceed.stage = some (.sent v) := by
  rw [hs]
  simp only [Chain.proceed]
  split_ifs <;> exact if_pos rfl

lemma deed?_received {purpose : Purpose} {phase : ReceivePhase}
    (hs : c.stage = .receive ch purpose phase) (v : Option Value) (closes : Bool) :
    Stage.deed? ch closes c.stage ({ c with stage := .received purpose v } : Chain).stage =
      some (.received v) := by
  rw [hs]
  exact if_pos rfl

/-- An unbuffered channel buffers nothing. -/
lemma Sane.buffer_eq_nil (h : m.Sane) (hcap : (m.store.channel ch).capacity = 0) :
    (m.store.channel ch).buffer = [] := by
  have hroom := h.room ch
  rw [hcap] at hroom
  exact List.eq_nil_of_length_eq_zero (Nat.le_zero.mp hroom)

lemma does_give? (hsane : m.Sane) {v : Value} {phase : SendPhase} (hc : m.chain? id = some c)
    (hs : c.stage = .send ch' v phase) (hphase : phase ≠ .check)
    (h : m.give? id c ch' v = some m') (ch : ChannelId) : m.Does m' ch := by
  have hlate : c.Late ch' := ⟨v, phase, hs, hphase⟩
  have hbusy : c.stage.channel? = some ch' := by rw [hs]; rfl
  simp only [give?] at h
  split_ifs at h with hroom hcap
  · cases h
    have hchains : (m.mapStore fun s => s.pushValue ch' v).chains = m.chains := rfl
    have hcalls := calls_callReceiver hchains ch'
    have hstore : (((m.mapStore fun s => s.pushValue ch' v).callReceiver ch').setChain id
        c.proceed).store = m.store.pushValue ch' v := store_callReceiver _ _
    obtain ⟨c', hc'⟩ := hcalls.chain id c hc
    refine does_single hc (chain?_setChain_self hc') hbusy (channel?_proceed c) (deed?_proceed hs)
      (fun _ => hlate) (fun ch z hz => ?_) ?_ (fun ch hch => ?_) ch
    · exact (hcalls.silent ch z).of_eq (chain?_setChain_of_ne hz)
    · rw [hstore]
      exact Store.changes_updateChannel (.push hroom v)
    · rw [hstore]
      exact Store.changes_updateChannel_of_ne hch
  · obtain ⟨⟨y, d, purpose⟩, hy, rfl⟩ := Option.map_eq_some_iff.mp h
    obtain ⟨hd, ht⟩ := of_firstWaiting? hy
    have hwait := of_wanted? ht
    have hxy : id ≠ y := by
      rintro rfl
      rw [hc] at hd
      cases hd
      simp [hs] at hwait
    have hrouse : (m.rouse y { d with stage := .received purpose (some v) }).chain? y =
        some { d with stage := .received purpose (some v) } := chain?_setChain_of_chains rfl hd
    have hc' : (m.rouse y { d with stage := .received purpose (some v) }).chain? id = some c :=
      (chain?_setChain_of_ne hxy).trans hc
    refine does_pass hxy hc (chain?_setChain_self hc') hd
      ((chain?_setChain_of_ne (Ne.symm hxy)).trans hrouse) hbusy (channel?_proceed c)
        (by rw [hwait]; rfl) rfl (deed?_proceed hs)
      (deed?_received hwait (some v)) hlate (fun ch z hzx hzy => ?_) rfl
      (.pass hcap (open_of_firstWaiting? hy) (hsane.buffer_eq_nil hcap) v) ch
    refine .same ((chain?_setChain_of_ne hzx).trans (chain?_setChain_of_ne hzy))

lemma does_take? {purpose : Purpose} {phase : ReceivePhase}
    (hc : m.chain? id = some c) (hs : c.stage = .receive ch' purpose phase)
    (h : m.take? id c ch' purpose = some m') (ch : ChannelId) : m.Does m' ch := by
  have hbusy : c.stage.channel? = some ch' := by rw [hs]; rfl
  simp only [take?] at h
  split at h
  case h_1 v rest hb =>
    cases h
    have hchains : (m.mapStore fun s => s.popValue ch').chains = m.chains := rfl
    have hcalls := calls_callSender hchains ch'
    have hstore : (((m.mapStore fun s => s.popValue ch').callSender ch').setChain id
        { c with stage := .received purpose (some v) }).store = m.store.popValue ch' :=
      store_callSender _ _
    obtain ⟨c', hc'⟩ := hcalls.chain id c hc
    refine does_single hc (chain?_setChain_self hc') hbusy rfl (deed?_received hs (some v))
      (fun h => Bool.noConfusion h) (fun ch z hz => ?_) ?_ (fun ch hch => ?_) ch
    · exact (hcalls.silent ch z).of_eq (chain?_setChain_of_ne hz)
    · rw [hstore]
      apply Store.changes_updateChannel
      rw [hb]
      exact .pop hb
    · rw [hstore]
      exact Store.changes_updateChannel_of_ne hch
  case h_2 hb =>
    split_ifs at h with hcap
    obtain ⟨⟨y, d, v⟩, hy, rfl⟩ := Option.map_eq_some_iff.mp h
    obtain ⟨hd, ht⟩ := of_firstWaiting? hy
    have hwait := of_offered? ht
    have hxy : y ≠ id := by
      rintro rfl
      rw [hc] at hd
      cases hd
      simp [hs] at hwait
    have hrouse : (m.rouse y d.proceed).chain? y = some d.proceed :=
      chain?_setChain_of_chains rfl hd
    have hd' : (m.rouse y d.proceed).chain? id = some c :=
      (chain?_setChain_of_ne (Ne.symm hxy)).trans hc
    refine does_pass hxy hd ((chain?_setChain_of_ne hxy).trans hrouse) hc
      (chain?_setChain_self hd') (by rw [hwait]; rfl) (channel?_proceed d) hbusy rfl
      (deed?_proceed hwait) (deed?_received hs (some v))
      ⟨v, .parked, hwait, fun h => SendPhase.noConfusion h⟩ (fun ch z hzx hzy => ?_) rfl
      (.pass hcap (open_of_firstWaiting? hy) hb v) ch
    refine .same ((chain?_setChain_of_ne hzy).trans (chain?_setChain_of_ne hzx))

/-- A send on a closed channel fails. -/
lemma does_refuse {v : Value} {phase : SendPhase} (hc : m.chain? id = some c)
    (hs : c.stage = .send ch' v phase) (hclosed : (m.store.channel ch').closed = true)
    (ch : ChannelId) : m.Does (m.setChain id (c.exit (.error (.fault .sendOnClosed)))) ch := by
  refine does_single hc (chain?_setChain_self hc) (by rw [hs]; rfl) rfl (fun closes => ?_)
    (fun h => Bool.noConfusion h) (fun ch z hz => silent_setChain rfl hz)
    (Store.changes_self (.refuse hclosed v)) (fun _ _ => Store.changes_refl _ _) ch
  rw [hs]
  exact if_pos rfl

lemma does_send (hsane : m.Sane) {v : Value} {phase : SendPhase} (hc : m.chain? id = some c)
    (hs : c.stage = .send ch' v phase) (ch : ChannelId) :
    m.Does (m.send id c ch' v phase) ch := by
  cases phase with
  | check =>
    simp only [Machine.send]
    split_ifs with hclosed
    · exact does_refuse hc hs hclosed ch
    · exact does_setChain rfl (Store.changes_refl _ _) hc
        (.sending hs _ fun _ => Bool.eq_false_iff.mpr hclosed)
  | offer =>
    have hphase : SendPhase.offer ≠ .check := SendPhase.noConfusion
    simp only [Machine.send]
    cases hg : m.give? id c ch' v with
    | some m' => exact does_give? hsane hc hs hphase hg ch
    | none =>
      dsimp only
      split_ifs
      · exact does_of_chains rfl rfl ch
      · exact does_setChain (n := { m with waiting := m.waiting ++ [id] }) rfl
          (Store.changes_refl _ _) hc (.sending hs _ fun h => absurd h hphase)
  | parked =>
    simp only [Machine.send]
    split_ifs
    · exact does_setChain (n := { m with waiting := m.waiting.erase id }) rfl
        (Store.changes_refl _ _) hc (.sending hs _ fun h => SendPhase.noConfusion h)
    · exact does_of_chains rfl rfl ch

lemma buffer_of_take? {purpose : Purpose} (h : m.take? id c ch purpose = none) :
    (m.store.channel ch).buffer = [] := by
  simp only [take?] at h
  split at h
  case h_1 => cases h
  case h_2 hb => exact hb

lemma does_receive (hsane : m.Sane) {purpose : Purpose} {phase : ReceivePhase}
    (hc : m.chain? id = some c) (hs : c.stage = .receive ch' purpose phase) (ch : ChannelId) :
    m.Does (m.receive id c ch' purpose phase) ch := by
  cases phase with
  | attempt =>
    simp only [Machine.receive]
    cases ht : m.take? id c ch' purpose with
    | some m' => exact does_take? hc hs ht ch
    | none =>
      exact does_setChain rfl (Store.changes_refl _ _) hc
        (.receiving hs _ fun h => ReceivePhase.noConfusion h)
  | check =>
    simp only [Machine.receive]
    refine does_setChain rfl (Store.changes_refl _ _) hc (.receiving hs _ fun h => ?_)
    split_ifs at h with hclosed
    exact hclosed
  | offer =>
    simp only [Machine.receive]
    cases ht : m.take? id c ch' purpose with
    | some m' => exact does_take? hc hs ht ch
    | none =>
      dsimp only
      split_ifs
      · exact does_of_chains rfl rfl ch
      · exact does_setChain (n := { m with waiting := m.waiting ++ [id] }) rfl
          (Store.changes_refl _ _) hc (.receiving hs _ fun h => ReceivePhase.noConfusion h)
  | parked =>
    simp only [Machine.receive]
    split_ifs
    · exact does_setChain (n := { m with waiting := m.waiting.erase id }) rfl
        (Store.changes_refl _ _) hc (.receiving hs _ fun h => ReceivePhase.noConfusion h)
    · exact does_of_chains rfl rfl ch
  | drain =>
    simp only [Machine.receive]
    cases ht : m.take? id c ch' purpose with
    | some m' => exact does_take? hc hs ht ch
    | none =>
      have hclosed := hsane.drains id c ch' purpose hc hs
      exact does_single hc (chain?_setChain_self hc) (by rw [hs]; rfl) rfl
        (deed?_received hs none) (fun h => Bool.noConfusion h)
        (fun ch z hz => silent_setChain rfl hz)
        (Store.changes_self (.dry hclosed (buffer_of_take? ht)))
        (fun _ _ => Store.changes_refl _ _) ch

lemma does_seeClosed (m : Machine) (id : ChainId) (ch : ChannelId) :
    m.Does (m.seeClosed id) ch := by
  simp only [seeClosed]
  cases hc : m.chain? id with
  | none => exact does_of_chains rfl rfl ch
  | some c =>
    dsimp only
    split
    case h_1 ch' v hs =>
      split_ifs with hclosed
      · exact does_refuse hc hs hclosed ch
      · exact does_of_chains rfl rfl ch
    case h_2 ch' purpose hs =>
      split_ifs with hclosed
      · exact does_setChain rfl (Store.changes_refl _ _) hc (.receiving hs _ fun _ => hclosed)
      · exact does_of_chains rfl rfl ch
    case h_3 => exact does_of_chains rfl rfl ch

end Machine

end Flowgraph
