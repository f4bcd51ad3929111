import Flowgraph.Proofs.Close.Exchange
import Flowgraph.Proofs.Locality

/-!
# What each move does on a channel

A chain by itself can do one thing on a channel, which is to close it. Every move does on a channel
what may be done there at once: `does_step` goes through all moves.
-/

namespace Flowgraph

namespace Machine

variable {m n : Machine} {ch ch' : ChannelId} {id : ChainId} {c c' : Chain}

/-! ### Steps of a chain by itself -/

lemma close_apply (ch : ChannelId) (s : Store) :
    Op.close ch s = if (s.channel ch).closed then .error (.fault .closeOfClosed) s
      else .ok () (s.updateChannel ch fun c => { c with closed := true }) := by
  rw [Op.close, Op.bind_apply, Op.get_apply]
  dsimp only
  split_ifs <;> rfl

/-- A chain has reached a node that closes a channel. -/
structure Closes (p : Program) (c : Chain) (a : Activation) (node : NodeId) : Prop where
  stage : c.stage = .walk
  walks : ∃ depth rest, c.walks = ⟨a, some node, depth⟩ :: rest
  kind : ∃ n, p.node node = .ok n ∧ n.kind = .close

variable {a : Activation} {node : NodeId}

/-- What a close does: it stops before it has found a channel, or it closes one, or it fails because
the channel is closed. -/
lemma Closes.walk_apply {p : Program} (h : Closes p c a node) (s : Store) :
    (∃ e, c.closing? p s = none ∧ c.walk p s = .error e s) ∨
      ∃ ch, c.closing? p s = some ch ∧ c.walk p s =
        if (s.channel ch).closed then .error (.fault .closeOfClosed) s
        else .ok { c with stage := .follow }
          (s.updateChannel ch fun c => { c with closed := true }) := by
  obtain ⟨depth, rest, hw⟩ := h.walks
  obtain ⟨n, hn, hk⟩ := h.kind
  have hwalk : c.walk p s = ((liftM (p.operand a.frame node 1) : Op Value) >>= fun v =>
      (liftM (v.asChannel "close") : Op ChannelId) >>= fun ch => Op.close ch >>= fun _ =>
        pure { c with stage := .follow }) s := by
    simp only [Chain.walk]
    rw [hw]
    dsimp only
    rw [Program.perform, bind_assoc, Op.except_bind_apply, hn]
    dsimp only
    rw [hk]
    simp only [Program.operation, Program.completely, Program.close, bind_assoc, pure_bind]
    rfl
  simp only [Chain.closing?]
  rw [hwalk, h.stage, hw, Op.look_bind_apply]
  dsimp only
  rw [hn]
  cases hv : p.operand a.frame node 1 s with
  | error e => exact .inl ⟨e, rfl, rfl⟩
  | ok v =>
    cases v with
    | chan ch =>
      refine .inr ⟨ch, if_pos hk, ?_⟩
      dsimp only
      rw [Op.except_bind_apply, Value.asChannel]
      dsimp only
      rw [Op.bind_apply, close_apply]
      split_ifs <;> rfl
    | _ => exact .inl ⟨_, rfl, rfl⟩

lemma channel?_of_advance {p : Program} {step : Op Chain} (ha : c.advance p = some step) :
    c.stage.channel? = none := by
  simp only [Chain.advance] at ha
  cases hs : c.stage <;> rw [hs] at ha <;> first | rfl | cases ha

lemma channel?_stopChain (c : Chain) (e : Stop) : (stopChain c e).stage.channel? = none := by
  cases e <;> rfl

lemma closes_of_closing? {p : Program} {s : Store} (h : c.closing? p s = some ch) :
    ∃ a node, Closes p c a node := by
  simp only [Chain.closing?] at h
  split at h
  case h_1 a node depth rest hs hw =>
    split at h
    case h_1 n ch' hn hv =>
      split_ifs at h with hk
      exact ⟨a, node, hs, ⟨depth, rest, hw⟩, n, hn, hk⟩
    case h_2 => cases h
  case h_2 => cases h

/-- A chain comes to the end of a close. -/
lemma does_closing {e : Deed} (hc : m.chain? id = some c)
    (hclose : c.closing? m.program m.store = some ch') (hs' : c'.stage.channel? = none)
    (hd : Stage.deed? ch' true c.stage c'.stage = some e) (he : e.sent? = none)
    (hchains : n.chains = m.chains) (hchanges : m.store.Changes ch' [e] n.store)
    (helse : ∀ ch, ch ≠ ch' → m.store.Changes ch [] n.store) (ch : ChannelId) :
    m.Does (n.setChain id c') ch := by
  have hwalk : c.stage = .walk := by
    obtain ⟨a, node, h⟩ := closes_of_closing? hclose
    exact h.stage
  by_cases hch : ch = ch'
  · subst hch
    have hc' : (n.setChain id c').chain? id = some c' := chain?_setChain_of_chains hchains hc
    refine ⟨[e], .single hc hc' ?_ (fun hsent => ?_) hs' fun z hz => ?_, hchanges⟩
    · rw [deed?_eq hc hc', hclose, decide_eq_true rfl, hd]
    · simp [he] at hsent
    · exact silent_setChain hchains hz
  · refine does_setChain hchains (helse ch hch) hc (.away ?_ ?_ (.inr ?_))
    · simp [hwalk, Stage.channel?]
    · rw [hclose]
      exact fun h => hch (Option.some.inj h).symm
    · simp [hs']

/-- A chain closes a channel, or fails to. -/
lemma does_closes (hc : m.chain? id = some c) (h : Closes m.program c a node) (ch : ChannelId) :
    m.Does (m.stepChain id c (c.walk m.program)) ch := by
  rw [stepChain_eq]
  rcases h.walk_apply m.store with ⟨e, hnone, hwalk⟩ | ⟨ch', hch', hwalk⟩
  · rw [hwalk]
    refine does_setChain rfl (Store.changes_refl _ _) hc (.away ?_ ?_ (.inr ?_))
    · simp [h.stage, Stage.channel?]
    · simp [hnone]
    · simp [channel?_stopChain]
  · rw [hwalk]
    split_ifs with hclosed
    · refine does_closing hc hch' rfl ?_ rfl rfl (Store.changes_self (.closeAgain hclosed))
        (fun _ _ => Store.changes_refl _ _) ch
      rw [h.stage]
      rfl
    · have hdoes := Channel.Does.close (Bool.eq_false_iff.mpr hclosed)
      refine does_closing hc hch' rfl ?_ rfl
        (n := m.mapStore fun s => s.updateChannel ch' fun c => { c with closed := true }) rfl
        (Store.changes_updateChannel hdoes) (fun _ hne => Store.changes_updateChannel_of_ne hne) ch
      rw [h.stage]
      rfl

/-- A step of a chain by itself does on a channel what may be done there. -/
lemma does_advance (hfit : m.Fits) (hc : m.chain? id = some c) {step : Op Chain}
    (ha : c.advance m.program = some step) (ch : ChannelId) :
    m.Does (m.stepChain id c step) ch := by
  by_cases hcloses : ∃ a node, Closes m.program c a node
  · obtain ⟨a, node, hclose⟩ := hcloses
    have hwalk : step = c.walk m.program := by
      simp only [Chain.advance] at ha
      rw [hclose.stage] at ha
      cases ha
      rfl
    rw [hwalk]
    exact does_closes hc hclose ch
  · have hs : c.stage.channel? ≠ some ch := by
      simp [channel?_of_advance ha]
    have hclosing : c.closing? m.program m.store ≠ some ch := fun h =>
      hcloses (closes_of_closing? h)
    have hclose : c.stage = .walk → ∀ w, c.walks.head? = some w → ¬w.At m.program .close := by
      rintro hstage ⟨a, _, depth⟩ hw ⟨node, n, rfl, hn, hk⟩
      obtain ⟨rest, hrest⟩ := List.head?_eq_some_iff.mp hw
      exact hcloses ⟨a, node, hstage, ⟨depth, rest, hrest⟩, n, hn, hk⟩
    have hkeeps := Chain.keeps_advance (Store.robust_changes m.store ch)
      (Store.settable_changes m.store ch) (hfit id c hc) ha hclose
    have hstep := hkeeps m.store (Store.changes_refl _ _)
    rw [stepChain_eq]
    cases hr : step m.store with
    | ok d s =>
      rw [hr] at hstep
      exact does_setChain (n := m.mapStore fun _ => s) rfl hstep.1 hc
        (.away hs hclosing (.inl hstep.2))
    | error e s =>
      rw [hr] at hstep
      refine does_setChain (n := m.mapStore fun _ => s) rfl hstep.1 hc
        (.away hs hclosing (.inr ?_))
      simp [channel?_stopChain]

/-! ### All moves -/

/-- A chain that is busy with no channel before and after. -/
lemma does_restage (hchains : n.chains = m.chains) (hstore : n.store = m.store)
    (hc : m.chain? id = some c) (hs : c.stage.channel? = none) (hwalk : c.stage ≠ .walk)
    (hs' : c'.stage.channel? = none) (ch : ChannelId) : m.Does (n.setChain id c') ch := by
  refine does_setChain hchains (hstore ▸ Store.changes_refl _ _) hc (.away ?_ ?_ (.inr ?_))
  · simp [hs]
  · simp [closing?_of_stage hwalk]
  · simp [hs']

/-- A chain that begins does nothing yet. -/
lemma silent_addChain (hc : c.stage.Fresh) (ch : ChannelId) (z : ChainId) :
    Silent m (m.addChain c).2 ch z := by
  by_cases hz : z.index = m.chains.size
  · refine .begun (Array.getElem?_eq_none (Nat.le_of_eq hz.symm)) fun c' hc' => ?_
    rw [chain?_addChain_eq, if_pos hz] at hc'
    cases hc'
    exact hc
  · exact .same (by rw [chain?_addChain_eq, if_neg hz])

lemma does_grant {task : TaskId} {callee : Callee} (hc : m.chain? id = some c)
    (hs : c.stage = .launch task callee) (ch : ChannelId) :
    m.Does (m.grant id c task callee) ch := by
  have hadd : (m.addChain (.ofTask task callee)).2.chain? id = some c := by
    rw [chain?_addChain_eq, if_neg (Nat.ne_of_lt (Array.getElem?_eq_some_iff.mp hc).1), hc]
  refine ⟨[], .quiet fun z => ?_, Store.changes_refl _ _⟩
  by_cases hz : z = id
  · subst hz
    refine .quiet hc (chain?_setChain_self hadd) (.away ?_ ?_ (.inl trivial))
    · simp [hs, Stage.channel?]
    · simp [closing?_of_stage fun hwalk => by rw [hs] at hwalk; cases hwalk]
  · have hfresh : (Chain.ofTask task callee).stage.Fresh := trivial
    exact (silent_addChain hfresh ch z).of_eq (chain?_setChain_of_ne hz)

lemma does_launch {task : TaskId} {callee : Callee} (hc : m.chain? id = some c)
    (hs : c.stage = .launch task callee) (ch : ChannelId) :
    m.Does (m.launch id c task callee) ch := by
  rw [launch]
  split
  case h_1 => exact does_grant hc hs ch
  case h_2 message _ =>
    have hwalk : c.stage ≠ .walk := by simp [hs]
    change m.Does (m.count.setChain id { c with stage := .withdraw message }) ch
    refine does_restage ?_ ?_ hc (by rw [hs]; rfl) hwalk ?_ ch
    all_goals rfl

lemma does_join {chains : List ChainId} (hc : m.chain? id = some c)
    (hs : c.stage = .join chains) (ch : ChannelId) : m.Does (m.join id c chains) ch := by
  have hrestage : ∀ {n : Machine} {c' : Chain}, n.chains = m.chains → n.store = m.store →
      c'.stage.channel? = none → m.Does (n.setChain id c') ch := by
    intro n c' hchains hstore hs'
    refine does_restage hchains hstore hc (by rw [hs]; rfl) (fun hwalk => ?_) hs' ch
    simp [hs] at hwalk
  cases chains with
  | cons y rest =>
    simp only [join]
    split_ifs
    · exact hrestage rfl rfl rfl
    · exact does_of_chains rfl rfl ch
  | nil =>
    simp only [join]
    split
    · exact hrestage rfl rfl rfl
    · exact hrestage (n := { m with launcher := { m.launcher with handles := [] } }) rfl rfl rfl

/-- Every move does on a channel what may be done there. -/
theorem does_step (hsane : m.Sane) (mv : Move) (ch : ChannelId) : m.Does (m.step mv) ch := by
  cases mv with
  | pass microseconds =>
    refine does_of_chains ?_ ?_ ch
    · rfl
    · rfl
  | seeClosed id => exact does_seeClosed m id ch
  | run id =>
    simp only [step, run]
    cases hc : m.chain? id with
    | none => exact does_of_chains rfl rfl ch
    | some c =>
      dsimp only
      have hadvance : ∀ op, c.advance m.program = some op → m.Does (m.stepChain id c op) ch :=
        fun op h => does_advance hsane.fits hc h ch
      have hrestage : ∀ (n : Machine) (c' : Chain), n.chains = m.chains ∧ n.store = m.store →
          c.stage.channel? = none → c.stage ≠ .walk → c'.stage.channel? = none →
            m.Does (n.setChain id c') ch :=
        fun n c' hn hs hwalk hs' => does_restage hn.1 hn.2 hc hs hwalk hs' ch
      cases hs : c.stage
      all_goals dsimp only
      all_goals rw [hs] at hrestage
      case send ch' v phase => exact does_send hsane hc hs ch
      case receive ch' purpose phase => exact does_receive hsane hc hs ch
      case launch task callee => exact does_launch hc hs ch
      case ended outcome => exact does_of_chains rfl rfl ch
      case lost => exact does_of_chains rfl rfl ch
      case pause milliseconds => exact hrestage m _ ⟨rfl, rfl⟩ rfl Stage.noConfusion rfl
      case sleep time =>
        simp only [wake]
        split_ifs
        · exact hrestage m _ ⟨rfl, rfl⟩ rfl Stage.noConfusion (channel?_proceed c)
        · exact does_of_chains rfl rfl ch
      case spawn callee =>
        exact hrestage { m with launcher := { m.launcher with started := m.launcher.started + 1 } }
          _ ⟨rfl, rfl⟩ rfl Stage.noConfusion rfl
      case withdraw message =>
        exact hrestage m.discount _ ⟨rfl, rfl⟩ rfl Stage.noConfusion rfl
      case enlist child =>
        simp only [enlist]
        exact hrestage { m with launcher := { m.launcher with handles := _ } } _ ⟨rfl, rfl⟩ rfl
          Stage.noConfusion (channel?_proceed c)
      case join chains => exact does_join hc hs ch
      case exit outcome =>
        exact hrestage _ _ (m.chains_record c outcome) rfl Stage.noConfusion rfl
      case leave outcome => exact hrestage _ _ (m.chains_retire c) rfl Stage.noConfusion rfl
      all_goals
        simp only [Chain.advance, hs]
        exact hadvance _ (by simp only [Chain.advance, hs])

end Machine

end Flowgraph
