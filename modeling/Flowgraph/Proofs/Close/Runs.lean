import Flowgraph.Proofs.Close.Moves
import Flowgraph.Proofs.Close.Traces

/-!
# What runs do on a channel

The history of a channel is a trace of what may be done there, along every run. A send that is past
looking whether the channel is closed is all that a closed channel has to fear: no chain comes to
be so late any more, and nothing is sent without one.
-/

namespace Flowgraph

namespace Machine

variable {m m' : Machine} {ch : ChannelId} {x : ChainId} {c c' : Chain} {ds : List Deed}

/-! ### One act -/

lemma fresh_hosted (h : c.Hosted) : c.stage.Fresh := by
  cases h with
  | ofSend ch v => exact rfl
  | ofReceive ch => exact rfl
  | _ => exact trivial

lemma onStore_close (m : Machine) (ch : ChannelId) : m.onStore (Op.close ch) =
    if (m.store.channel ch).closed then (.error (.fault .closeOfClosed), m)
    else (.ok (), m.mapStore fun s => s.updateChannel ch fun c => { c with closed := true }) := by
  obtain ⟨program, store, chains, launcher, waiting, clock⟩ := m
  simp only [onStore, close_apply]
  split_ifs <;> rfl

lemma chains_close (m : Machine) (ch : ChannelId) :
    (m.act (.close ch)).chains = m.chains ∧ (m.act (.close ch)).program = m.program := by
  rw [act, onStore_close]
  split_ifs <;> exact ⟨rfl, rfl⟩

lemma changes_close (m : Machine) (ch ch' : ChannelId) :
    m.store.Changes ch (m.deeds ch (.close ch')) (m.act (.close ch')).store := by
  rw [deeds, act]
  by_cases hch : ch' = ch
  · subst hch
    rw [if_pos rfl, onStore_close]
    split_ifs with hclosed
    · exact Store.changes_self (.closeAgain hclosed)
    · exact Store.changes_updateChannel (.close (Bool.eq_false_iff.mpr hclosed))
  · rw [if_neg hch, onStore_close]
    split_ifs
    · exact Store.changes_refl _ _
    · exact Store.changes_updateChannel_of_ne (Ne.symm hch)

/-- Every act does on a channel what may be done there. -/
lemma changes_act (hsane : m.Sane) (a : Act) (ch : ChannelId) :
    m.store.Changes ch (m.deeds ch a) (m.act a).store := by
  cases a with
  | move mv =>
    obtain ⟨ds, heffect, hchanges⟩ := does_step hsane mv ch
    rw [heffect.deeds]
    exact hchanges
  | host c hc => exact Store.changes_refl _ _
  | close ch' => exact changes_close m ch ch'
  | change f hf =>
    obtain ⟨hsize, hchannel⟩ := hf m.store
    refine ⟨hsize, fun hlt => ?_, fun hle => ?_⟩
    · rcases hchannel ch with he | ⟨hle, -⟩
      · change (m.store.channel ch).Does [] ((f m.store).channel ch)
        rw [he]
        exact .nothing _
      · exact absurd hlt (Nat.not_lt.mpr hle)
    · rcases hchannel ch with he | ⟨-, hnew⟩
      · exact .inl (he.trans (Store.channel_of_size_le hle))
      · exact .inr hnew

/-- Whoever does something on a channel is no longer busy with it. -/
lemma Effect.silent_of_busy (h : Effect m m' ch ds) (hc' : m'.chain? x = some c')
    (hs : c'.stage.channel? = some ch) : Silent m m' ch x := by
  have hne : ∀ {y d'}, m'.chain? y = some d' → d'.stage.channel? = none → x ≠ y := by
    rintro y d' hd' hnone rfl
    rw [hc'] at hd'
    cases hd'
    simp [hs] at hnone
  cases h with
  | quiet h => exact h x
  | single _ hd' _ _ hs' h => exact h x (hne hd' hs')
  | pass _ _ hd' _ he' _ _ _ hs' ht' h => exact h x (hne hd' hs') (hne he' ht')

/-- A chain that is busy with a channel after an act has done nothing on it. -/
lemma silent_of_busy (hsane : m.Sane) (a : Act) (hc' : (m.act a).chain? x = some c')
    (hs : c'.stage.channel? = some ch) : Silent m (m.act a) ch x := by
  cases a with
  | move mv =>
    obtain ⟨ds, heffect, -⟩ := does_step hsane mv ch
    exact heffect.silent_of_busy hc' hs
  | host c hc => exact silent_addChain (fresh_hosted hc) ch x
  | close ch' => exact .same (by rw [chain?, chain?, (chains_close m ch').1])
  | change f hf => exact .same rfl

/-- A closed channel exists. -/
lemma lt_of_closed (h : (m.store.channel ch).closed = true) :
    ch.index < m.store.channels.size := by
  by_contra hle
  simp [Store.channel_of_size_le (Nat.not_lt.mp hle)] at h

lemma closed_act (hsane : m.Sane) (a : Act) (h : (m.store.channel ch).closed = true) :
    ((m.act a).store.channel ch).closed = true :=
  ((changes_act hsane a ch).does (lt_of_closed h)).stays h

lemma fits_act (h : m.Fits) (a : Act) : (m.act a).Fits := by
  cases a with
  | move mv => exact h.step mv
  | host c hc => exact h.addChain (fits_hosted hc)
  | close ch =>
    intro y d hd
    rw [chain?, (chains_close m ch).1] at hd
    rw [(chains_close m ch).2]
    exact h y d hd
  | change f hf => exact h

lemma Sane.act (h : m.Sane) (a : Act) : (m.act a).Sane where
  fits := fits_act h.fits a
  drains y d ch purpose hd hs := by
    apply closed_act h a
    have hbusy : d.stage.channel? = some ch := by rw [hs]; rfl
    cases silent_of_busy h a hd hbusy with
    | same he => exact h.drains y d ch purpose (he ▸ hd) hs
    | quiet _ hd' hquiet =>
      rw [hd] at hd'
      cases hd'
      exact hquiet.drains purpose hs
    | begun _ hfresh =>
      have hphase := hfresh d hd
      rw [hs] at hphase
      cases hphase
  room ch := by
    have hchanges := changes_act h a ch
    by_cases hlt : ch.index < m.store.channels.size
    · exact (hchanges.does hlt).fits (h.room ch)
    · rcases hchanges.begun (Nat.not_lt.mp hlt) with he | ⟨capacity, he⟩
      · rw [he]
        exact Nat.le_refl _
      · rw [he]
        exact Nat.zero_le _

lemma sane_ofProgram (p : Program) (kept : Bool) : (ofProgram p kept).Sane where
  fits _ _ hx := by cases hx
  drains _ _ _ _ hx := by cases hx
  room _ := Nat.le_refl _

/-! ### Runs -/

lemma Sane.after (h : m.Sane) (acts : List Act) : (m.after acts).Sane := by
  induction acts generalizing m with
  | nil => exact h
  | cons a acts ih => exact ih (h.act a)

lemma size_after (hsane : m.Sane) (acts : List Act) :
    m.store.channels.size ≤ (m.after acts).store.channels.size := by
  induction acts generalizing m with
  | nil => exact Nat.le_refl _
  | cons a acts ih => exact Nat.le_trans (changes_act hsane a ⟨0⟩).size (ih (hsane.act a))

/-- The history of a channel is a trace of what may be done there. -/
theorem trace_history (hsane : m.Sane) (hch : ch.index < m.store.channels.size)
    (acts : List Act) :
    (m.store.channel ch).Trace (m.history ch acts) ((m.after acts).store.channel ch) := by
  induction acts generalizing m with
  | nil => exact .nil _
  | cons a acts ih =>
    have hchanges := changes_act hsane a ch
    exact .cons (hchanges.does hch) (ih (hsane.act a) (Nat.lt_of_lt_of_le hch hchanges.size))

/-! ### Late senders -/

/-- A chain sends on a buffered channel and is past looking whether the channel is closed. -/
def Late (m : Machine) (ch : ChannelId) : Prop :=
  0 < (m.store.channel ch).capacity ∧ ∃ x c, m.chain? x = some c ∧ c.Late ch

end Machine

end Flowgraph
