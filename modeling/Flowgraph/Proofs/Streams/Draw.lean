import Flowgraph.Proofs.Streams.Arrival
import Flowgraph.Proofs.Streams.Feed
import Flowgraph.Proofs.Streams.Loop

/-!
# What is drawn from a pipe

The consumer is at the loop, or elsewhere. At the loop it asks the channel, receives an answer and
makes a round of it, and it does not fail there. So the rounds of the loop are the answers of the
channel, in their order, but for one that has not become a round yet.
-/

namespace Flowgraph

/-- The answer of a receive. -/
def Deed.answer? : Deed → Option (Option Value)
  | received v => some v
  | _ => none

/-- The answer that a chain has received and not used yet. -/
def Stage.answer? : Stage → Option (Option Value)
  | received _ v => some v
  | _ => none

/-- The node that a chain is at is the one that its topmost walk has reached. -/
lemma Chain.walks_of_at? {c : Chain} {f : FrameId} {id : NodeId} (h : c.at? = some (f, id)) :
    ∃ a depth rest, a.frame = f ∧ c.walks = ⟨a, some id, depth⟩ :: rest := by
  simp only [Chain.at?] at h
  split at h
  case h_1 a id depth rest hw =>
    cases h
    exact ⟨a, depth, rest, rfl, hw⟩
  case h_2 => cases h

namespace Machine

variable {m m' : Machine} {P : Pipe} {c c' : Chain}

/-- The round that an answer will make that is not used yet. -/
def pending? (m : Machine) (P : Pipe) : Option Round := do
  let c ← m.chain? P.consumer
  if c.at? = some (P.frame, P.node) then c.stage.answer?.map .ofAnswer else none

lemma pending?_eq (hc : m.chain? P.consumer = some c) : m.pending? P =
    if c.at? = some (P.frame, P.node) then c.stage.answer?.map .ofAnswer else none := by
  simp only [pending?, hc, bind, Option.bind]

lemma pending?_eq_none (h : ∀ c, m.chain? P.consumer = some c →
    c.at? = some (P.frame, P.node) → c.stage.answer? = none) : m.pending? P = none := by
  cases hc : m.chain? P.consumer with
  | none => simp [pending?, hc]
  | some c =>
    rw [pending?_eq hc]
    split_ifs with hat
    · rw [h c hc hat]
      rfl
    · rfl

lemma round?_eq (hc : m.chain? P.consumer = some c) (hc' : m'.chain? P.consumer = some c') :
    m.round? m' P = if c.at? = some (P.frame, P.node) ∧ c.stage.completes c'.stage then
      some (m'.round P) else none := by
  simp only [round?, hc, hc', bind, Option.bind]

lemma round?_eq_none (h : ∀ c, m.chain? P.consumer = some c → c.at? = some (P.frame, P.node) →
    c.stage = .follow) : m.round? m' P = none := by
  cases hc : m.chain? P.consumer with
  | none => simp [round?, hc]
  | some c =>
    cases hc' : m'.chain? P.consumer with
    | none => simp [round?, hc, hc']
    | some c' =>
      rw [round?_eq hc hc']
      refine if_neg fun hand => ?_
      rw [h c hc hand.1] at hand
      exact Bool.noConfusion hand.2

end Machine

namespace Pipe

open Machine

variable {P : Pipe} {m m' : Machine} {capacity : Nat} {acts : List Act} {a : Act} {c : Chain}

/-! ### One act -/

/-- The loop's state is what it was. -/
def Keeps (P : Pipe) (m m' : Machine) : Prop :=
  ∀ i, i = P.slot ∨ i = P.slot + 1 →
    m'.store.slot? P.frame i = m.store.slot? P.frame i

/-- What the consumer does at the loop. -/
inductive Laps (P : Pipe) : Stage → Prop
  | walk : Laps P .walk
  | follow : Laps P .follow
  | receive (k : Int64) (phase : ReceivePhase) :
    Laps P (.receive P.channel (.visit (.int k)) phase)
  | received (k : Int64) (v : Option Value) : Laps P (.received (.visit (.int k)) v)

/-- What an act can make of the consumer while it is at the loop. -/
inductive Turns (P : Pipe) (m m' : Machine) : Stage → Stage → Prop
  | stays {stage : Stage} (h : P.Laps stage) (hkeeps : P.Keeps m m') : Turns P m m' stage stage
  | asks (k : Int64) (hkeeps : P.Keeps m m') :
    Turns P m m' .walk (.receive P.channel (.visit (.int k)) .attempt)
  | waits (k : Int64) (phase phase' : ReceivePhase) (hkeeps : P.Keeps m m') :
    Turns P m m' (.receive P.channel (.visit (.int k)) phase)
      (.receive P.channel (.visit (.int k)) phase')
  | receives (k : Int64) (phase : ReceivePhase) (v : Option Value) (hkeeps : P.Keeps m m') :
    Turns P m m' (.receive P.channel (.visit (.int k)) phase) (.received (.visit (.int k)) v)
  /-- A round comes to its end. -/
  | rounds (k : Int64) (v : Option Value) (hround : m'.round P = .ofAnswer v)
    (hflag : m'.store.slot? P.frame P.slot = some (.bool (Round.ofAnswer v).goesOn))
    (hposition : m'.store.slot? P.frame (P.slot + 1) = some .nil ∨
      ∃ k, m'.store.slot? P.frame (P.slot + 1) = some (.int k)) :
    Turns P m m' (.received (.visit (.int k)) v) .follow

/-- What an act can mean to the consumer. -/
inductive Lap (P : Pipe) (m m' : Machine) : Prop
  /-- The consumer is elsewhere or leaves the loop, and can only come to walk there again. -/
  | away (h : ∀ c, m.chain? P.consumer = some c → c.at? = some (P.frame, P.node) →
      c.stage = .follow)
    (h' : ∀ c', m'.chain? P.consumer = some c' → c'.at? = some (P.frame, P.node) →
      c'.stage = .walk)
    (hi : m.current? P.channel P.consumer = none) (hi' : m'.current? P.channel P.consumer = none)
    (hkeeps : P.Keeps m m')
  | turns {c : Chain} {stage stage' : Stage} (hc : m.chain? P.consumer = some c)
    (hat : c.at? = some (P.frame, P.node)) (hs : c.stage = stage)
    (hc' : m'.chain? P.consumer = some { c with stage := stage' })
    (hturns : P.Turns m m' stage stage')

/-! ### At the loop -/

lemma lap_of_walk (hc : m.chain? P.consumer = some c) (hat : c.at? = some (P.frame, P.node))
    (hs : c.stage = .walk) (hshape : P.Shaped m.program m.store)
    (hranges : m.program.operand P.frame P.node 2 m.store = .ok (.chan P.channel))
    (hposition : m.store.slot? P.frame (P.slot + 1) = some .nil ∨
      ∃ k, m.store.slot? P.frame (P.slot + 1) = some (.int k)) :
    P.Lap m (m.act (.move (.run P.consumer))) := by
  obtain ⟨k, hperform⟩ := hshape.perform hranges hposition
  obtain ⟨⟨f, _, _, _⟩, depth, rest, rfl, hw⟩ := Chain.walks_of_at? hat
  obtain ⟨hc', hstore⟩ := run_of_steps hc (.operation hs hw rfl hperform)
  exact .turns hc hat hs hc' (.asks k fun i _ => by rw [hstore])

lemma lap_of_follow (hc : m.chain? P.consumer = some c) (hat : c.at? = some (P.frame, P.node))
    (hs : c.stage = .follow) : P.Lap m (m.act (.move (.run P.consumer))) := by
  obtain ⟨⟨f, decl, entry, results⟩, depth, rest, rfl, hw⟩ := Chain.walks_of_at? hat
  have hbusy : ∀ {n : Machine} {d : Chain}, n.chain? P.consumer = some d →
      d.stage.channel? = none → n.current? P.channel P.consumer = none := by
    intro n d hd hnone
    rw [current?_eq hd, attempt?_eq_none, hnone]
    exact fun h => by cases h
  have hends := Program.gives_successor_of_endless m.program P.frame P.node m.store trivial
  have ha : c.advance m.program = some (c.follow m.program) := by rw [Chain.advance, hs]
  obtain ⟨c', hc', hstore, hwalk, hidle⟩ : ∃ c',
      (m.act (.move (.run P.consumer))).chain? P.consumer = some c' ∧
        (m.act (.move (.run P.consumer))).store = m.store ∧
        (c'.at? = some (P.frame, P.node) → c'.stage = .walk) ∧ c'.stage.channel? = none := by
    have he : m.act (.move (.run P.consumer)) = m.stepChain P.consumer c (c.follow m.program) :=
      run_of_advance hc ha
    rw [he, stepChain_eq]
    simp only [Chain.follow, hw]
    rw [Op.look_bind_apply]
    cases hnext : m.program.successor P.frame P.node m.store with
    | ok next => exact ⟨_, chain?_setChain_self hc, rfl, fun _ => rfl, rfl⟩
    | error e =>
      rw [hnext] at hends
      refine ⟨_, chain?_setChain_self hc, rfl, fun hat' => ?_, channel?_stopChain c e⟩
      cases e with
      | endless => exact absurd rfl hends
      | fault => cases hat'
      | panic => cases hat'
  refine .away (fun d hd _ => ?_) (fun d hd hat' => ?_) (hbusy hc (by rw [hs]; rfl))
    (hbusy hc' hidle) fun i _ => by rw [hstore]
  · rw [hc] at hd
    cases hd
    exact hs
  · rw [hc'] at hd
    cases hd
    exact hwalk hat'

lemma lap_of_received (hc : m.chain? P.consumer = some c)
    (hat : c.at? = some (P.frame, P.node)) {k : Int64} {v : Option Value}
    (hs : c.stage = .received (.visit (.int k)) v) (hshape : P.Shaped m.program m.store) :
    P.Lap m (m.act (.move (.run P.consumer))) := by
  obtain ⟨⟨f, _, _, _⟩, depth, rest, rfl, hw⟩ := Chain.walks_of_at? hat
  obtain ⟨s, hvisit, hfirst, hflag, hposition⟩ : ∃ s,
      m.program.visitReceived P.frame P.node (.int k) v m.store = .ok () s ∧
        (∀ w, v = some w → m.program.operand P.frame P.node 0 s = .ok w) ∧
        s.slot? P.frame P.slot = some (.bool (Round.ofAnswer v).goesOn) ∧
        (s.slot? P.frame (P.slot + 1) = some .nil ∨
          ∃ k, s.slot? P.frame (P.slot + 1) = some (.int k)) := by
    cases v with
    | some w =>
      obtain ⟨s, hs, hfirst, hflag, hposition⟩ := hshape.visit w (.int k)
      refine ⟨s, hs, fun w' hw' => ?_, hflag, .inr ⟨k, hposition⟩⟩
      cases hw'
      exact hfirst
    | none =>
      obtain ⟨s, hs, hflag, hposition⟩ := hshape.finish
      exact ⟨s, hs, fun w hw => (by cases hw), hflag, .inl hposition⟩
  obtain ⟨hc', hstore⟩ := run_of_steps hc (.visiting hs hw hvisit)
  refine .turns hc hat hs hc' (.rounds k v ?_ (hstore ▸ hflag) (hstore ▸ hposition))
  rw [Machine.round, hstore, hflag, program_act]
  cases v with
  | some w => exact congrArg Round.visited (hfirst w rfl)
  | none => rfl

/-- While a receive is under way, the loop's state is left alone. -/
lemma lap_of_receive (hc : m.chain? P.consumer = some c)
    (hat : c.at? = some (P.frame, P.node)) {k : Int64} {phase : ReceivePhase}
    (hs : c.stage = .receive P.channel (.visit (.int k)) phase)
    (hkeeps : a ≠ .move (.run P.consumer) → P.Keeps m (m.act a)) : P.Lap m (m.act a) := by
  have hkeeps' : P.Keeps m (m.act a) := by
    by_cases ha : a = .move (.run P.consumer)
    · subst ha
      exact fun i _ => slot?_run hc (by rw [Chain.advance, hs]) _ i
    · exact hkeeps ha
  rcases receive_act a hc hs with ⟨phase', hc'⟩ | ⟨v, hc'⟩
  · exact .turns hc hat hs hc' (.waits k phase phase' hkeeps')
  · exact .turns hc hat hs hc' (.receives k phase v hkeeps')

/-- Whoever is elsewhere can come to the loop only to walk there. -/
lemma lap_of_elsewhere (hsane : m.Sane) (hat : m.at? P.consumer ≠ some (P.frame, P.node))
    (hshape : (m.act a).at? P.consumer = some (P.frame, P.node) →
      P.Shaped (m.act a).program (m.act a).store)
    (hi : m.current? P.channel P.consumer = none)
    (hi' : (m.act a).current? P.channel P.consumer = none) (hkeeps : P.Keeps m (m.act a)) :
    P.Lap m (m.act a) := by
  have haway : ∀ c, m.chain? P.consumer = some c → c.at? ≠ some (P.frame, P.node) := by
    intro c hc
    rwa [at?, hc] at hat
  refine .away (fun c hc hat => absurd hat (haway c hc)) (fun c' hc' hat' => ?_) hi hi' hkeeps
  cases hc : m.chain? P.consumer with
  | none => exact walk_of_begun hc hc' (by rw [hat']; simp)
  | some c =>
    rcases arrives_act hc hc' with hsame | hwalk | htail | hnone
    · exact absurd (hsame.symm.trans hat') (haway c hc)
    · exact hwalk
    · -- The walk below is at a call, and not at the loop.
      obtain ⟨f, depth, rest, -, hw⟩ := Chain.walks_of_at? hat'
      obtain ⟨n, hn, hkind, -⟩ := (hshape (by rw [at?, hc']; exact hat')).node
      obtain ⟨_, n', hnode, hn', hkind'⟩ := (hsane.fits _ c hc).suspended _
        (by rw [← htail, hw]; exact List.mem_cons_self)
      cases hnode
      rw [program_act, hn'] at hn
      cases hn
      rw [hkind] at hkind'
      cases hkind'
    · simp [hnone] at hat'

/-! ### All acts -/

/-- What was answered and what comes to be answered makes rounds, or is not used yet. -/
lemma Lap.answers (h : P.Lap m m') :
    (m.pending? P).toList ++
        (((m.deed? m' P.channel P.consumer).bind Deed.answer?).map .ofAnswer).toList =
      (m.round? m' P).toList ++ (m'.pending? P).toList := by
  cases h with
  | away h h' hi hi' =>
    have hdeed : (m.deed? m' P.channel P.consumer).bind Deed.answer? = none := by
      rcases Machine.deed?_of_idle hi with hd | ⟨outcome, hd⟩ <;> rw [hd] <;> rfl
    rw [hdeed, round?_eq_none h, pending?_eq_none fun c hc hat => h c hc hat ▸ rfl,
      pending?_eq_none fun c hc hat => h' c hc hat ▸ rfl]
    rfl
  | @turns c stage stage' hc hat hs hc' hturns =>
    have hat' : ({ c with stage := stage' } : Chain).at? = some (P.frame, P.node) := hat
    rw [Machine.deed?_eq hc hc', Machine.round?_eq hc hc', Machine.pending?_eq hc,
      Machine.pending?_eq hc']
    simp only [hat, hat', hs, true_and, if_true]
    cases hturns with
    | stays hlaps =>
      rw [Stage.deed?_self]
      cases hlaps <;> rfl
    | asks k => rfl
    | waits k phase phase' => rfl
    | receives k phase v => simp [Stage.deed?, Stage.completes, Stage.answer?, Deed.answer?]
    | rounds k v hround => simp [Stage.deed?, Stage.completes, Stage.answer?, hround]

lemma Turns.laps {stage stage' : Stage} (h : P.Turns m m' stage stage') : P.Laps stage' := by
  cases h with
  | stays h => exact h
  | asks k => exact .receive k _
  | waits k phase phase' => exact .receive k _
  | receives k phase v => exact .received k v
  | rounds => exact .follow

lemma Lap.laps (h : P.Lap m m') (hc : m'.chain? P.consumer = some c)
    (hat : c.at? = some (P.frame, P.node)) : P.Laps c.stage := by
  cases h with
  | away _ h' =>
    rw [h' c hc hat]
    exact .walk
  | turns _ _ _ hc' hturns =>
    rw [hc'] at hc
    cases hc
    exact hturns.laps

/-- Only a round that comes to its end changes the loop's state. -/
lemma Lap.state (h : P.Lap m m') : m.round? m' P = none ∧ P.Keeps m m' ∨
    ∃ o, m.round? m' P = some o ∧
      m'.store.slot? P.frame P.slot = some (.bool o.goesOn) ∧
      (m'.store.slot? P.frame (P.slot + 1) = some .nil ∨
        ∃ k, m'.store.slot? P.frame (P.slot + 1) = some (.int k)) := by
  cases h with
  | away h _ _ _ hkeeps => exact .inl ⟨round?_eq_none h, hkeeps⟩
  | turns hc hat hs hc' hturns =>
    rw [round?_eq hc hc', hs]
    cases hturns with
    | stays hlaps hkeeps =>
        exact .inl ⟨by cases hlaps <;> exact if_neg (by simp [Stage.completes]), hkeeps⟩
    | asks k hkeeps => exact .inl ⟨if_neg (by simp [Stage.completes]), hkeeps⟩
    | waits k phase phase' hkeeps => exact .inl ⟨if_neg (by simp [Stage.completes]), hkeeps⟩
    | receives k phase v hkeeps => exact .inl ⟨if_neg (by simp [Stage.completes]), hkeeps⟩
    | rounds k v hround hflag hposition =>
      exact .inr ⟨.ofAnswer v, by rw [if_pos ⟨hat, rfl⟩, hround], hflag, hposition⟩

/-- How far the consumer of a pipe has come by acts. -/
structure Drawn (P : Pipe) (m : Machine) (acts : List Act) : Prop where
  stage : ∀ c, (m.after acts).chain? P.consumer = some c → c.at? = some (P.frame, P.node) →
    P.Laps c.stage
  busy : ∀ b, (m.after acts).current? P.channel P.consumer = some b →
    (m.after acts).at? P.consumer = some (P.frame, P.node)
  /-- The answers are the rounds, but for an answer that is not used yet. -/
  answers : ((m.history P.channel acts).filterMap Deed.answer?).map .ofAnswer =
    m.rounds P acts ++ ((m.after acts).pending? P).toList
  flag : ∀ o, (m.rounds P acts).getLast? = some o →
    (m.after acts).store.slot? P.frame P.slot = some (.bool o.goesOn)
  position : m.rounds P acts ≠ [] →
    (m.after acts).store.slot? P.frame (P.slot + 1) = some .nil ∨
      ∃ k, (m.after acts).store.slot? P.frame (P.slot + 1) = some (.int k)

lemma Fresh.drawn (h : P.Fresh m capacity) : P.Drawn m [] where
  stage c hc hat := by
    rw [h.outside c hc hat]
    exact .walk
  busy b hb := by
    change m.current? P.channel P.consumer = some b at hb
    rw [h.idle] at hb
    cases hb
  answers := by
    change [] = [] ++ (m.pending? P).toList
    rw [Machine.pending?_eq_none fun c hc hat => h.outside c hc hat ▸ rfl]
    rfl
  flag o ho := by cases ho
  position h := absurd rfl h

/-- Every act means one of these to the consumer. -/
lemma Drawn.lap (h : P.Drawn m acts) (hplayed : P.Played m (acts ++ [a])) (hsane : m.Sane)
    (hch : P.channel.index < m.store.channels.size) :
    P.Lap (m.after acts) ((m.after acts).act a) := by
  have hsane' := hsane.after acts
  have hch' := Nat.lt_of_lt_of_le hch (Machine.size_after hsane acts)
  have hkeeps := hplayed.state acts a [] rfl
  have hprogram := program_after m acts
  by_cases hat : (m.after acts).at? P.consumer = some (P.frame, P.node)
  · obtain ⟨c, hc, hatc⟩ := Option.bind_eq_some_iff.mp hat
    have hshape := hplayed.shape acts [a] rfl hat
    rw [← hprogram] at hshape
    have hkeeps' : a ≠ .move (.run P.consumer) → P.Keeps (m.after acts) ((m.after acts).act a) :=
      fun hne => hkeeps fun hand => hne hand.1
    have hlaps := h.stage c hc hatc
    -- Unless the consumer runs, it stays as it is.
    have hstays : ∀ {op}, c.advance (m.after acts).program = some op →
        a ≠ .move (.run P.consumer) → P.Lap (m.after acts) ((m.after acts).act a) :=
      fun ha hne => .turns hc hatc rfl (chain?_act_of_advance hc ha hne)
        (.stays hlaps (hkeeps' hne))
    generalize hs : c.stage = stage at hlaps
    cases hlaps with
    | walk =>
      by_cases ha : a = .move (.run P.consumer)
      · subst ha
        have hranges := hplayed.ranges acts [_] rfl c hc hatc hs
        rw [← hprogram] at hranges
        refine lap_of_walk hc hatc hs hshape hranges ?_
        by_cases hrounds : m.rounds P acts = []
        · exact (hplayed.entry acts [_] rfl c hc hatc hs hrounds).imp_right fun h => ⟨0, h⟩
        · exact h.position hrounds
      · exact hstays (by rw [Chain.advance, hs]) ha
    | follow =>
      by_cases ha : a = .move (.run P.consumer)
      · subst ha
        exact lap_of_follow hc hatc hs
      · exact hstays (by rw [Chain.advance, hs]) ha
    | receive k phase => exact lap_of_receive hc hatc hs hkeeps'
    | received k v =>
      by_cases ha : a = .move (.run P.consumer)
      · subst ha
        exact lap_of_received hc hatc hs hshape
      · exact hstays (by rw [Chain.advance, hs]) ha
  · have hidle : (m.after acts).current? P.channel P.consumer = none := by
      cases hb : (m.after acts).current? P.channel P.consumer with
      | none => rfl
      | some b => exact absurd (h.busy b hb) hat
    have hattempt : (m.after acts).attempt? ((m.after acts).act a) P.channel P.consumer = none := by
      cases hb : (m.after acts).attempt? ((m.after acts).act a) P.channel P.consumer with
      | none => rfl
      | some b => exact absurd (hplayed.consumer acts a [] rfl b hb).2 hat
    refine lap_of_elsewhere hsane' hat (fun hat' => ?_) hidle
      (deed?_of_attempt? hsane' hch' hidle hattempt).2 (hkeeps fun hand => hat hand.2)
    rw [← after_concat] at hat' ⊢
    rw [program_after]
    exact hplayed.shape _ [] (List.append_nil _).symm hat'

/-- Only the consumer receives. -/
lemma Fed.answers (h : P.Fed m acts) (hplayed : P.Played m (acts ++ [a])) (hsane : m.Sane)
    (hch : P.channel.index < m.store.channels.size) :
    ((m.after acts).deeds P.channel a).filterMap Deed.answer? =
      (((m.after acts).deed? ((m.after acts).act a) P.channel P.consumer).bind
        Deed.answer?).toList := by
  have hch' := Nat.lt_of_lt_of_le hch (size_after hsane acts)
  refine Machine.filterMap_deeds (hsane.after acts) (hplayed.host a (by simp)) fun x hx => ?_
  have hsends : ∀ b, (m.after acts).current? P.channel x = some b → b ≠ .receive := by
    intro b hb
    by_cases hy : x = P.producer
    · subst hy
      obtain ⟨v, rfl⟩ := h.sends b hb
      exact Attempt.noConfusion
    · simp [h.others x hy hx] at hb
  have hcourse := course (hsane.after acts) hch' a x
  generalize (m.after acts).attempt? ((m.after acts).act a) P.channel x = b at hcourse
  generalize (m.after acts).deed? ((m.after acts).act a) P.channel x = d at hcourse ⊢
  cases hcourse with
  | received hc hs =>
    exact absurd rfl (hsends .receive (by simp [current?_eq hc, hs, Stage.attempt?]))
  | _ => rfl

/-- With one more act, the consumer is still on its way. -/
lemma Drawn.act (h : P.Drawn m acts) (hfed : P.Fed m acts) (hplayed : P.Played m (acts ++ [a]))
    (hsane : m.Sane) (hch : P.channel.index < m.store.channels.size) :
    P.Drawn m (acts ++ [a]) := by
  have hlap := h.lap hplayed hsane hch
  constructor
  case stage =>
    intro c hc hat
    rw [after_concat] at hc
    exact hlap.laps hc hat
  case busy =>
    intro b hb
    rw [after_concat] at hb ⊢
    cases hlap with
    | away _ _ _ hi' => simp [hi'] at hb
    | turns _ hat _ hc' =>
      rw [at?, hc']
      exact hat
  case answers =>
    rw [history_concat, rounds_concat, after_concat, List.filterMap_append, List.map_append,
      h.answers, hfed.answers hplayed hsane hch, List.append_assoc, List.append_assoc,
      ← hlap.answers]
    cases ((m.after acts).deed? ((m.after acts).act a) P.channel P.consumer).bind
      Deed.answer? <;> rfl
  case flag =>
    intro o ho
    rw [after_concat]
    rw [rounds_concat] at ho
    rcases hlap.state with ⟨hnone, hkeeps⟩ | ⟨o', hround, hflag, -⟩
    · rw [hnone, Option.toList_none, List.append_nil] at ho
      rw [hkeeps _ (.inl rfl), h.flag o ho]
    · rw [hround, Option.toList_some, List.getLast?_concat] at ho
      cases ho
      exact hflag
  case position =>
    intro hne
    rw [after_concat]
    rcases hlap.state with ⟨hnone, hkeeps⟩ | ⟨-, -, -, hposition⟩
    · rw [hkeeps _ (.inr rfl)]
      rw [rounds_concat, hnone, Option.toList_none, List.append_nil] at hne
      exact h.position hne
    · exact hposition

/-- The consumer of a pipe is on its way, at every moment. -/
lemma drawn (hplayed : P.Played m acts) (hfresh : P.Fresh m capacity) (hsane : m.Sane) :
    P.Drawn m acts := by
  induction acts using List.reverseRecOn with
  | nil => exact hfresh.drawn
  | append_singleton acts a ih =>
    have hbefore := hplayed.so_far
    exact (ih hbefore).act (fed hbefore hfresh hsane) hplayed hsane hfresh.inside

end Pipe

end Flowgraph
