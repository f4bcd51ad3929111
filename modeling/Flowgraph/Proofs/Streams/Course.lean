import Flowgraph.Proofs.Close.Final
import Flowgraph.Proofs.Streams.Pipes

/-!
# What an act means to one chain

Seen from one channel, a chain is idle or busy. `Course` lists what an act can mean to it: it begins
something, goes on with it, or comes to its end. When only one chain can do something of a kind on
the channel, the deeds of that kind are those of the chain.
-/

namespace Flowgraph

namespace Machine

variable {m m' : Machine} {ch : ChannelId} {x y z : ChainId} {c c' : Chain} {a : Act}

lemma program_act (m : Machine) (a : Act) : (m.act a).program = m.program := by
  cases a with
  | move mv => exact program_step m mv
  | close ch => exact (chains_close m ch).2
  | host | change => rfl

lemma program_after (m : Machine) (acts : List Act) : (m.after acts).program = m.program := by
  induction acts generalizing m with
  | nil => rfl
  | cons a acts ih => exact (ih (m.act a)).trans (program_act m a)

/-! ### Deeds of one chain -/

lemma current?_eq (hc : m.chain? x = some c) : m.current? ch x = c.stage.attempt? ch := by
  rw [current?, hc, Option.bind_some]

lemma attempt?_eq_none {stage : Stage} : stage.attempt? ch = none ↔ stage.channel? ≠ some ch := by
  cases stage <;> simp [Stage.attempt?, Stage.channel?]

/-- Whoever is about to do nothing on the channel can only have closed it. -/
lemma deed?_of_idle (h : m.current? ch x = none) :
    m.deed? m' ch x = none ∨ ∃ outcome, m.deed? m' ch x = some (.closed outcome) := by
  cases hc : m.chain? x with
  | none => exact .inl (by simp only [deed?, hc, bind, Option.bind])
  | some c =>
    cases hc' : m'.chain? x with
    | none => exact .inl (by simp only [deed?, hc, hc', bind, Option.bind])
    | some c' =>
      rw [current?_eq hc, attempt?_eq_none] at h
      rw [deed?_eq hc hc']
      by_cases hclose : c.closing? m.program m.store = some ch
      · have hs : c.stage = .walk := by
          by_contra hne
          rw [closing?_of_stage hne] at hclose
          cases hclose
        rw [hs]
        simp only [Stage.deed?]
        split
        all_goals simp_all
      · rw [decide_eq_false hclose, Stage.deed?_of_channel? h]
        exact .inl rfl

/-- A host does nothing on a channel, but that it closes it. -/
lemma deed?_act_of_host (h : ∀ mv, a ≠ .move mv) : m.deed? (m.act a) ch x = none := by
  have hsame : (m.act a).chain? x = m.chain? x → m.deed? (m.act a) ch x = none := fun he =>
    (Silent.same he).deed
  cases a with
  | move mv => exact absurd rfl (h mv)
  | host c hc => exact (silent_addChain (fresh_hosted hc) ch x).deed
  | close ch' => exact hsame (by rw [chain?, chain?, (chains_close m ch').1])
  | change f hf => exact hsame rfl

lemma deeds_of_host (h : ∀ mv, a ≠ .move mv) (hclose : a ≠ .close ch) : m.deeds ch a = [] := by
  cases a with
  | move mv => exact absurd rfl (h mv)
  | close ch' => exact if_neg fun he => hclose (congrArg Act.close he)
  | host | change => rfl

/-- When no other chain does anything of a kind, the deeds of that kind are those of one chain. -/
lemma filterMap_deeds {β : Type} {g : Deed → Option β} (hsane : m.Sane) (hclose : a ≠ .close ch)
    (h : ∀ z, z ≠ x → (m.deed? (m.act a) ch z).bind g = none) :
    (m.deeds ch a).filterMap g = ((m.deed? (m.act a) ch x).bind g).toList := by
  have hone : ∀ d : Deed, [d].filterMap g = (g d).toList := fun d => by
    cases hd : g d <;> simp [hd]
  by_cases hmove : ∀ mv, a ≠ .move mv
  · rw [deeds_of_host hmove hclose, deed?_act_of_host hmove]
    rfl
  obtain ⟨mv, rfl⟩ : ∃ mv, a = .move mv := by
    simpa using hmove
  obtain ⟨ds, heffect, -⟩ := does_step hsane mv ch
  rw [heffect.deeds]
  cases heffect with
  | quiet hquiet =>
    change _ = ((m.deed? (m.step mv) ch x).bind g).toList
    rw [(hquiet x).deed]
    rfl
  | @single y c c' d _ _ hd _ _ hothers =>
    rw [hone]
    by_cases hx : x = y
    · subst hx
      exact congrArg Option.toList (congrArg (·.bind g) hd.symm)
    · have hnone : g d = none := by
        have hy := h y (Ne.symm hx)
        change (m.deed? (m.step mv) ch y).bind g = none at hy
        rwa [hd] at hy
      change _ = ((m.deed? (m.step mv) ch x).bind g).toList
      rw [hnone, (hothers x hx).deed]
      rfl
  | @pass y z c c' d d' v hyz _ _ _ _ hy hz _ _ _ hothers =>
    have hg : ∀ w d, w ≠ x → m.deed? (m.step mv) ch w = some d → g d = none := by
      intro w d hw hd
      have hnone := h w hw
      change (m.deed? (m.step mv) ch w).bind g = none at hnone
      rwa [hd] at hnone
    change _ = ((m.deed? (m.step mv) ch x).bind g).toList
    by_cases hxy : x = y
    · subst hxy
      rw [List.filterMap_cons, hone, hg z _ (Ne.symm hyz) hz, hy, Option.bind_some]
      cases g (.sent v) <;> rfl
    · rw [List.filterMap_cons_none (hg y _ (Ne.symm hxy) hy), hone]
      by_cases hxz : x = z
      · subst hxz
        rw [hz]
        rfl
      · rw [hg z _ (Ne.symm hxz) hz, (hothers x hxy hxz).deed]
        rfl

/-! ### Receives that are under way -/

/-- A receive that is under way is still under way after any act, or has its answer. -/
lemma receive_act (a : Act) (hc : m.chain? x = some c) {purpose : Purpose} {phase : ReceivePhase}
    (hs : c.stage = .receive ch purpose phase) :
    (∃ phase', (m.act a).chain? x = some { c with stage := .receive ch purpose phase' }) ∨
      ∃ v, (m.act a).chain? x = some { c with stage := .received purpose v } := by
  have hself : c = { c with stage := .receive ch purpose phase } := by rw [← hs]
  have hstays : (m.act a).chain? x = m.chain? x →
      ∃ phase', (m.act a).chain? x = some { c with stage := .receive ch purpose phase' } :=
    fun he => ⟨phase, he.trans (hc.trans (congrArg some hself))⟩
  have hlt : x.index < m.chains.size := (Array.getElem?_eq_some_iff.mp hc).1
  cases a with
  | move mv =>
    change (∃ phase', (m.step mv).chain? x = _) ∨ ∃ v, (m.step mv).chain? x = _
    obtain ⟨c', hc'⟩ := exists_chain?_step ⟨c, hc⟩ mv
    cases next_of_step hc hc' with
    | same => exact .inl (hstays (hc'.trans hc.symm))
    | restaged hr =>
      cases hr
      case receiving next hs' =>
        rw [hs] at hs'
        cases hs'
        exact .inl ⟨next, hc'⟩
      case received v hs' _ =>
        rw [hs] at hs'
        cases hs'
        exact .inr ⟨v, hc'⟩
      all_goals
        rename_i hs'
        rw [hs] at hs'
        cases hs'
    | advanced _ ha | stopped _ ha =>
      have hnone := channel?_of_advance ha
      rw [hs] at hnone
      cases hnone
  | host c' hc' =>
    refine .inl (hstays ?_)
    change (m.addChain c').2.chain? x = m.chain? x
    rw [chain?_addChain_eq, if_neg (Nat.ne_of_lt hlt)]
  | close ch' => exact .inl (hstays (by rw [chain?, chain?, (chains_close m ch').1]))
  | change f hf => exact .inl (hstays rfl)

/-! ### All courses -/

/-- What an act means to a chain: what the chain begins on the channel, and what it does there. -/
inductive Course (m m' : Machine) (ch : ChannelId) (x : ChainId) :
    Option Attempt → Option Deed → Prop
  | idle (h : m.current? ch x = none) (h' : m'.current? ch x = none) : Course m m' ch x none none
  | begins {b : Attempt} (h : m.current? ch x = none) (h' : m'.current? ch x = some b) :
    Course m m' ch x (some b) none
  | closes (outcome : Except Stop Unit) (h : m.current? ch x = none)
    (h' : m'.current? ch x = none) : Course m m' ch x (some .close) (some (.closed outcome))
  | sending {v : Value} (h : m.current? ch x = some (.send v))
    (h' : m'.current? ch x = some (.send v)) : Course m m' ch x none none
  | sent {v : Value} (h : m.current? ch x = some (.send v)) (h' : m'.current? ch x = none) :
    Course m m' ch x none (some (.sent v))
  | unsent {v : Value} (h : m.current? ch x = some (.send v)) (h' : m'.current? ch x = none) :
    Course m m' ch x none (some (.unsent v (.fault .sendOnClosed)))
  | receiving {c : Chain} {purpose : Purpose} {phase : ReceivePhase} (hc : m.chain? x = some c)
    (hs : c.stage = .receive ch purpose phase) (phase' : ReceivePhase)
    (hc' : m'.chain? x = some { c with stage := .receive ch purpose phase' }) :
    Course m m' ch x none none
  | received {c : Chain} {purpose : Purpose} {phase : ReceivePhase} (hc : m.chain? x = some c)
    (hs : c.stage = .receive ch purpose phase) (v : Option Value)
    (hc' : m'.chain? x = some { c with stage := .received purpose v }) :
    Course m m' ch x none (some (.received v))

lemma attempt?_of_current? {b : Attempt} (h : m.current? ch x = some b)
    (hd : ∀ outcome, m.deed? m' ch x ≠ some (.closed outcome)) : m.attempt? m' ch x = none := by
  rw [attempt?]
  split
  case h_1 outcome hclosed => exact absurd hclosed (hd outcome)
  case h_2 => exact if_pos (by rw [h]; rfl)

/-- Whoever has done something on the channel is about to do nothing there. -/
lemma current?_of_deed {d : Deed} (hd : m.deed? m' ch x = some d) : m'.current? ch x = none := by
  cases hc : m.chain? x with
  | none => simp [deed?, hc] at hd
  | some c =>
    cases hc' : m'.chain? x with
    | none => simp [deed?, hc, hc'] at hd
    | some c' =>
      rw [deed?_eq hc hc'] at hd
      rw [current?_eq hc']
      simp only [Stage.deed?] at hd
      split at hd
      all_goals first | cases hd | (rename_i hs'; rw [hs']; rfl)

/-- Every act means one of these to every chain. -/
theorem course (hsane : m.Sane) (hch : ch.index < m.store.channels.size) (a : Act)
    (x : ChainId) :
    Course m (m.act a) ch x (m.attempt? (m.act a) ch x) (m.deed? (m.act a) ch x) := by
  cases hcurrent : m.current? ch x with
  | none =>
    rcases deed?_of_idle hcurrent with hd | ⟨outcome, hd⟩
    · have hattempt : m.attempt? (m.act a) ch x = (m.act a).current? ch x := by
        rw [attempt?, hd, hcurrent]
        rfl
      rw [hattempt, hd]
      cases hb : (m.act a).current? ch x with
      | none => exact .idle hcurrent hb
      | some b => exact .begins hcurrent hb
    · have hattempt : m.attempt? (m.act a) ch x = some .close := by rw [attempt?, hd]
      rw [hattempt, hd]
      exact .closes outcome hcurrent (current?_of_deed hd)
  | some b =>
    obtain ⟨c, hc, hb⟩ := Option.bind_eq_some_iff.mp hcurrent
    have hattempt := @attempt?_of_current? m (m.act a) ch x b hcurrent
    cases hs : c.stage with
    | send ch' v phase =>
      rw [hs, Stage.attempt?] at hb
      split_ifs at hb with hch'
      subst hch'
      cases hb
      rcases send_act hsane hch a hc hs with ⟨c', phase', hc', hs'⟩ | ⟨d, -, hd, rfl | rfl⟩
      · have hd : m.deed? (m.act a) ch' x = none := by
          rw [deed?_eq hc hc', hs, hs']
          rfl
        rw [hattempt fun outcome => by rw [hd]; simp, hd]
        refine .sending hcurrent ?_
        rw [current?_eq hc', hs', Stage.attempt?, if_pos rfl]
      · rw [hattempt fun outcome => by rw [hd]; simp, hd]
        exact .sent hcurrent (current?_of_deed hd)
      · rw [hattempt fun outcome => by rw [hd]; simp, hd]
        exact .unsent hcurrent (current?_of_deed hd)
    | receive ch' purpose phase =>
      rw [hs, Stage.attempt?] at hb
      split_ifs at hb with hch'
      subst hch'
      rcases receive_act a hc hs with ⟨phase', hc'⟩ | ⟨v, hc'⟩
      · have hd : m.deed? (m.act a) ch' x = none := by
          rw [deed?_eq hc hc', hs]
          rfl
        rw [hattempt fun outcome => by rw [hd]; simp, hd]
        exact .receiving hc hs phase' hc'
      · have hd : m.deed? (m.act a) ch' x = some (.received v) := by
          rw [deed?_eq hc hc', deed?_received hs]
        rw [hattempt fun outcome => by rw [hd]; simp, hd]
        exact .received hc hs v hc'
    | _ =>
      rw [hs] at hb
      cases hb

end Machine

end Flowgraph
