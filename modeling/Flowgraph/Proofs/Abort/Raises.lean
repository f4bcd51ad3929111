import Mathlib.Tactic.Common
import Flowgraph.Proofs.Locality
import Flowgraph.Proofs.Stages

/-!
# Where stops come from

`Chain.Raises` lists all that can stop a chain in a step by itself, and `Machine.Raises` adds what a
channel can do to a sender. A chain comes to its end early when one of these stops is raised, and
never otherwise.
-/

namespace Flowgraph

/-! ### Steps of a chain by itself -/

/-- In a store, the next step of a chain raises a stop and leaves a store behind. -/
inductive Chain.Raises (p : Program) (s : Store) (c : Chain) : Stop → Store → Prop
  /-- The operation of the node that is reached stops. -/
  | operation {w : Walk} {rest : List Walk} {id : NodeId} {e : Stop} {s' : Store}
    (hs : c.stage = .walk) (hw : c.walks = w :: rest) (hn : w.node = some id)
    (h : p.perform w.activation.frame id s = .error e s') : Raises p s c e s'
  /-- At the end of a function, the frame has too few slots for the results. -/
  | results {w : Walk} {rest : List Walk} {e : Stop} (hs : c.stage = .walk)
    (hw : c.walks = w :: rest) (hn : w.node = none)
    (h : Program.results w.activation s = .error e) : Raises p s c e s
  /-- The value that a node branches on cannot be read. -/
  | branch {a : Activation} {id : NodeId} {depth : Nat} {rest : List Walk} {e : Stop}
    (hs : c.stage = .follow) (hw : c.walks = ⟨a, some id, depth⟩ :: rest)
    (h : p.successor a.frame id s = .error e) : Raises p s c e s
  /-- A call that was given its values cannot be bound. -/
  | binding {callee : Value} {receiver : Option Value} {args : List Value} {e : Stop} {s' : Store}
    (hs : c.stage = .call callee receiver args)
    (h : p.bindValues callee receiver args s = .error e s') : Raises p s c e s'
  /-- A function would be nested too deep. -/
  | depth {depth limit : Nat} {a : Activation} (hs : c.stage = .start depth (.declared a))
    (hlimit : p.config.maxCallDepth = some limit) (h : limit < depth) :
    Raises p s c (.fault (.stackOverflow limit)) s
  /-- A native stops. -/
  | native {depth : Nat} {name : String} {args : List Value} {symbol : Symbol} {e : Stop}
    (hs : c.stage = .start depth (.native name args)) (hname : p.natives.symbol? name = some symbol)
    (h : symbol.run p.config s args = .stop e) : Raises p s c e s
  /-- There is no native of that name. -/
  | unknown {depth : Nat} {name : String} {args : List Value}
    (hs : c.stage = .start depth (.native name args)) (hname : p.natives.symbol? name = none) :
    Raises p s c (.fault (.unknownNative name)) s
  /-- The slots of the node that called cannot take the results. -/
  | copy {a : Activation} {id : NodeId} {depth : Nat} {rest : List Walk} {vs : List Value}
    {e : Stop} {s' : Store} (hs : c.stage = .deliver vs)
    (hw : c.walks = ⟨a, some id, depth⟩ :: rest)
    (h : p.storeResults a.frame id vs s = .error e s') : Raises p s c e s'
  /-- The slots of a node cannot take what was received. -/
  | storing {a : Activation} {id : NodeId} {depth : Nat} {rest : List Walk} {v : Option Value}
    {e : Stop} {s' : Store} (hs : c.stage = .received .result v)
    (hw : c.walks = ⟨a, some id, depth⟩ :: rest)
    (h : p.storeReceived a.frame id v s = .error e s') : Raises p s c e s'
  /-- A loop cannot visit what was received. -/
  | visiting {a : Activation} {id : NodeId} {depth : Nat} {rest : List Walk} {next : Value}
    {v : Option Value} {e : Stop} {s' : Store} (hs : c.stage = .received (.visit next) v)
    (hw : c.walks = ⟨a, some id, depth⟩ :: rest)
    (h : p.visitReceived a.frame id next v s = .error e s') : Raises p s c e s'
  /-- The system has refused the thread of a task. -/
  | spawning {message : String} (hs : c.stage = .abandon message) :
    Raises p s c (.fault (.spawn message)) s

namespace Chain

variable {p : Program} {c d : Chain} {s s' : Store} {e : Stop} {step : Op Chain}

/-- When an operation with nothing but a result after it stops, the operation stopped. -/
lemma of_map_error {α β : Type} {x : Op α} {f : α → β}
    (h : (do return f (← x) : Op β) s = .error e s') : x s = .error e s' := by
  rw [Op.bind_apply] at h
  cases hx : x s with
  | ok a t => rw [hx] at h; cases h
  | error e' t => rw [hx] at h; cases h; rfl

lemma of_look_error {α β : Type} {look : Look α} {f : α → β}
    (h : (do return f (← liftM look) : Op β) s = .error e s') : look s = .error e ∧ s' = s := by
  rw [Op.look_bind_apply] at h
  cases hx : look s with
  | ok a => rw [hx] at h; cases h
  | error e' => rw [hx] at h; cases h; exact ⟨rfl, rfl⟩

lemma raises_walk (hs : c.stage = .walk) (h : c.walk p s = .error e s') : c.Raises p s e s' := by
  cases hw : c.walks with
  | nil => simp only [walk, hw] at h; cases h
  | cons w rest =>
    cases hn : w.node with
    | none =>
      simp only [walk, hw, hn] at h
      obtain ⟨hresults, rfl⟩ := of_look_error h
      exact .results hs hw hn hresults
    | some id =>
      simp only [walk, hw, hn] at h
      exact .operation hs hw hn (of_map_error h)

lemma raises_follow (hs : c.stage = .follow) (h : c.follow p s = .error e s') :
    c.Raises p s e s' := by
  rcases c.at_node_or with ⟨a, id, depth, rest, hw⟩ | hw
  · simp only [follow, hw] at h
    obtain ⟨hnext, rfl⟩ := of_look_error h
    exact .branch hs hw hnext
  · have hfollow : c.follow p = pure { c with stage := .walk } := by
      simp only [follow]
    rw [hfollow] at h
    cases h

lemma raises_start {depth : Nat} {callee : Callee} (hs : c.stage = .start depth callee)
    (h : c.start p depth callee s = .error e s') : c.Raises p s e s' := by
  cases callee with
  | declared a =>
    cases hlimit : p.config.maxCallDepth with
    | none => simp only [start, hlimit] at h; cases h
    | some limit =>
      simp only [start, hlimit] at h
      split_ifs at h with hdepth
      · cases h
        exact .depth hs hlimit hdepth
      · cases h
  | native name args =>
    cases hname : p.natives.symbol? name with
    | none =>
      simp only [start, hname] at h
      cases h
      exact .unknown hs hname
    | some symbol =>
      simp only [start, hname, Op.bind_apply, Op.get_apply] at h
      cases hreply : symbol.run p.config s args with
      | stop e' =>
        simp only [hreply, reply] at h
        cases h
        exact .native hs hname hreply
      | results vs | print line vs | call f vs =>
        simp only [hreply, reply] at h
        cases h

lemma raises_deliver {vs : List Value} (hs : c.stage = .deliver vs)
    (h : c.deliver p vs s = .error e s') : c.Raises p s e s' := by
  rcases c.at_node_or with ⟨a, id, depth, rest, hw⟩ | hw
  · simp only [deliver, hw] at h
    exact .copy hs hw (of_map_error h)
  · have hdeliver : c.deliver p vs = pure (c.exit (.ok vs)) := by
      simp only [deliver]
    rw [hdeliver] at h
    cases h

lemma raises_received {purpose : Purpose} {v : Option Value} (hs : c.stage = .received purpose v)
    (h : c.received p purpose v s = .error e s') : c.Raises p s e s' := by
  rcases c.at_node_or with ⟨a, id, depth, rest, hw⟩ | hw
  · cases purpose with
    | result =>
      simp only [received, hw] at h
      exact .storing hs hw (of_map_error h)
    | visit next =>
      simp only [received, hw] at h
      exact .visiting hs hw (of_map_error h)
  · have hreceived : c.received p purpose v = pure (c.exit (.ok v.toList)) := by
      simp only [received]
    rw [hreceived] at h
    cases h

/-- `Raises` lists all the ways in which the next step of a chain can stop. -/
theorem raises_of_advance (ha : c.advance p = some step) (h : step s = .error e s') :
    c.Raises p s e s' := by
  simp only [advance] at ha
  split at ha
  case h_1 hs => cases ha; exact raises_walk hs h
  case h_2 hs => cases ha; exact raises_follow hs h
  case h_3 hs => cases ha; exact .binding hs (of_map_error h)
  case h_4 hs => cases ha; exact raises_start hs h
  case h_5 hs => cases ha; exact raises_deliver hs h
  case h_6 hs => cases ha; exact raises_received hs h
  case h_7 hs => cases ha; cases h; exact .spawning hs
  case h_8 => cases ha

/-- Every stop in the list is one of the chain's next step. -/
theorem Raises.advance (h : c.Raises p s e s') :
    ∃ step, c.advance p = some step ∧ step s = .error e s' := by
  cases h with
  | operation hs hw hn h =>
    refine ⟨_, by rw [Chain.advance, hs], ?_⟩
    simp only [walk, hw, hn, Op.bind_apply, h]
  | results hs hw hn h =>
    refine ⟨_, by rw [Chain.advance, hs], ?_⟩
    simp only [walk, hw, hn, Op.look_bind_apply, h]
  | branch hs hw h =>
    refine ⟨_, by rw [Chain.advance, hs], ?_⟩
    simp only [follow, hw, Op.look_bind_apply, h]
  | binding hs h =>
    refine ⟨_, by rw [Chain.advance, hs], ?_⟩
    rw [Op.bind_apply, h]
  | depth hs hlimit h =>
    refine ⟨_, by rw [Chain.advance, hs], ?_⟩
    simp only [start, hlimit, if_pos h, Op.throw_apply]
  | native hs hname h =>
    refine ⟨_, by rw [Chain.advance, hs], ?_⟩
    simp only [start, hname, Op.bind_apply, Op.get_apply, h, reply, Op.throw_apply]
  | unknown hs hname =>
    refine ⟨_, by rw [Chain.advance, hs], ?_⟩
    simp only [start, hname, Op.throw_apply]
  | copy hs hw h =>
    refine ⟨_, by rw [Chain.advance, hs], ?_⟩
    simp only [deliver, hw, Op.bind_apply, h]
  | storing hs hw h | visiting hs hw h =>
    refine ⟨_, by rw [Chain.advance, hs], ?_⟩
    simp only [received, hw, Op.bind_apply, h]
  | spawning hs =>
    refine ⟨_, by rw [Chain.advance, hs], ?_⟩
    rw [Op.throw_apply]

end Chain

/-! ### Chains that were aborted -/

/-- The stages that a chain comes to by itself, as long as nothing stops it. -/
def Stage.isOnward : Stage → Bool
  | .walk | .follow | .call _ _ _ | .start _ _ | .deliver _ | .send _ _ _ | .receive _ _ _
  | .pause _ | .spawn _ | .exit (.ok _) => true
  | _ => false

namespace Chain

variable {p : Program} {c d : Chain} {e : Stop} {step : Op Chain}

/-- The stop that brought a chain to its end. -/
def stop? (c : Chain) : Option Stop :=
  match c.stage with
  | .exit (.error e) | .leave (.error e) | .ended (.error e) => some e
  | _ => none

lemma stop?_eq_some (h : c.stop? = some e) :
    c.stage = .exit (.error e) ∨ c.stage = .leave (.error e) ∨ c.stage = .ended (.error e) := by
  simp only [stop?] at h
  split at h
  case h_1 hs => cases h; exact .inl hs
  case h_2 hs => cases h; exact .inr (.inl hs)
  case h_3 hs => cases h; exact .inr (.inr hs)
  case h_4 => cases h

lemma stop?_proceed (c : Chain) : c.proceed.stop? = none := by
  simp only [proceed]
  split_ifs <;> rfl

/-- What others do to a chain does not abort it. -/
lemma stop?_stirred (h : Machine.Stirred c d) : d.stop? = none := by
  cases h with
  | relieved => exact c.stop?_proceed
  | resend | retry | served => rfl

lemma Steps.task (h : c.Steps p s d s') : d.task = c.task := by
  cases h <;> rfl

/-- As long as no stop is raised, a chain goes on or ends with results. -/
lemma Steps.onward (h : c.Steps p s d s') : d.stage.isOnward = true := by
  cases h with
  | @operation w rest id pending => cases pending <;> rfl
  | _ => rfl

lemma stop?_of_onward (h : c.stage.isOnward = true) : c.stop? = none := by
  cases hs : c.stop? with
  | none => rfl
  | some e => rcases stop?_eq_some hs with hs | hs | hs <;> rw [hs] at h <;> cases h

end Chain

/-! ### Moves of a machine -/

namespace Machine

variable {m : Machine} {x : ChainId} {mv : Move} {c d : Chain} {e : Stop} {s : Store}
  {ch : ChannelId} {v : Value}

/-- A move of a chain raises a stop and leaves a store behind. -/
inductive Raises (m : Machine) (x : ChainId) : Move → Stop → Store → Prop
  /-- The chain makes a step by itself. -/
  | alone {c : Chain} {e : Stop} {s : Store} (hc : m.chain? x = some c)
    (h : c.Raises m.program m.store e s) : Raises m x (.run x) e s
  /-- The chain is about to send on a closed channel. -/
  | refused {c : Chain} {ch : ChannelId} {v : Value} (hc : m.chain? x = some c)
    (hs : c.stage = .send ch v .check) (hclosed : (m.store.channel ch).closed = true) :
    Raises m x (.run x) (.fault .sendOnClosed) m.store
  /-- The channel was closed after the chain had begun to send. -/
  | dismissed {c : Chain} {ch : ChannelId} {v : Value} (hc : m.chain? x = some c)
    (hs : c.stage = .send ch v .offer) (hclosed : (m.store.channel ch).closed = true) :
    Raises m x (.seeClosed x) (.fault .sendOnClosed) m.store

/-- A stop changes nothing but what it was raised with, and brings the chain to its end. -/
theorem step_of_raises (hc : m.chain? x = some c) (h : m.Raises x mv e s) :
    m.step mv = (m.mapStore fun _ => s).setChain x (stopChain c e) := by
  cases h with
  | alone hc' h =>
    rw [hc] at hc'
    cases hc'
    obtain ⟨step, ha, hstep⟩ := h.advance
    rw [Machine.step, run_of_advance hc ha, stepChain_eq, hstep]
  | refused hc' hs hclosed =>
    rw [hc] at hc'
    cases hc'
    simp only [step, run, hc, hs, send, if_pos hclosed]
    rfl
  | dismissed hc' hs hclosed =>
    rw [hc] at hc'
    cases hc'
    simp only [step, seeClosed, hc, hs, if_pos hclosed]
    rfl

lemma stop?_stopChain {e' : Stop} (h : (stopChain c e).stop? = some e') : e' = e := by
  cases e with
  | endless => cases h
  | fault f => cases h; rfl
  | panic text => cases h; rfl

/-- A sender comes to its end early only because its channel is closed. -/
lemma stop?_send {phase : SendPhase} (hc : m.chain? x = some c) (hs : c.stage = .send ch v phase)
    (hd : (m.send x c ch v phase).chain? x = some d) :
    d.stop? = none ∨ phase = .check ∧ (m.store.channel ch).closed = true ∧
      d.stop? = some (.fault .sendOnClosed) := by
  have hsame : m.chain? x = some d → d.stop? = none := by
    intro hd
    rw [hc] at hd
    cases hd
    simp only [Chain.stop?, hs]
  have hset : ∀ {n : Machine} {c' : Chain}, n.chains = m.chains → c'.stop? = none →
      (n.setChain x c').chain? x = some d → d.stop? = none := by
    intro n c' hn hc' hd
    rcases of_chain?_setChain hd with hd | ⟨-, rfl⟩
    · exact hsame (by rwa [chain?, hn] at hd)
    · exact hc'
  cases phase with
  | check =>
    simp only [send] at hd
    split_ifs at hd with hclosed
    · rw [chain?_setChain_self hc] at hd
      cases hd
      exact .inr ⟨rfl, hclosed, rfl⟩
    · exact .inl (hset rfl rfl hd)
  | offer =>
    simp only [send] at hd
    cases hg : m.give? x c ch v with
    | some m' =>
      have hlt : x.index < m.chains.size := (Array.getElem?_eq_some_iff.mp hc).1
      simp only [hg, chain?_give? hlt hg] at hd
      cases hd
      exact .inl c.stop?_proceed
    | none =>
      simp only [hg] at hd
      split_ifs at hd
      · exact .inl (hsame hd)
      · exact .inl (hset (n := { m with waiting := m.waiting ++ [x] }) rfl rfl hd)
  | parked =>
    simp only [send] at hd
    split_ifs at hd
    · exact .inl (hset (n := { m with waiting := m.waiting.erase x }) rfl rfl hd)
    · exact .inl (hsame hd)

lemma raises_of_sending {phase : SendPhase} (hc : m.chain? x = some c)
    (hs : c.stage = .send ch v phase) (hd : (m.step mv).chain? x = some d)
    (h : d.stop? = some e) : ∃ s, m.Raises x mv e s := by
  have hsame : m.chain? x ≠ some d := by
    intro hd
    rw [hc] at hd
    cases hd
    simp [Chain.stop?, hs] at h
  by_cases hrun : mv = .run x
  · subst hrun
    simp only [step, run, hc, hs] at hd
    rcases stop?_send hc hs hd with hnone | ⟨rfl, hclosed, hd⟩
    · rw [hnone] at h
      cases h
    · rw [hd] at h
      cases h
      exact ⟨_, .refused hc hs hclosed⟩
  by_cases hsee : mv = .seeClosed x
  · subst hsee
    simp only [step, seeClosed, hc] at hd
    split at hd
    case h_1 ch' v' hs' =>
      split_ifs at hd with hclosed
      · rw [chain?_setChain_self hc] at hd
        cases hd
        cases h
        exact ⟨_, .dismissed hc hs' hclosed⟩
      · exact absurd hd hsame
    case h_2 hs' => rw [hs] at hs'; cases hs'
    case h_3 => exact absurd hd hsame
  · rcases chain?_step_of_others hrun hsee hc with hc' | ⟨c', hc', hstirred⟩
    · exact absurd (hc.trans (hc'.symm.trans hd)) hsame
    · rw [hd] at hc'
      cases hc'
      rw [Chain.stop?_stirred hstirred] at h
      cases h

/-- A chain that was aborted was so before the move, or its own move raised the stop. -/
theorem raises_of_stop? (hc : m.chain? x = some c) (hd : (m.step mv).chain? x = some d)
    (h : d.stop? = some e) : c.stop? = some e ∨ ∃ s, m.Raises x mv e s := by
  cases next_of_step hc hd with
  | same => exact .inl h
  | restaged hr =>
    cases hr with
    | refused hs => exact .inr (raises_of_sending hc hs hd h)
    | @leaving outcome hs | @ended outcome hs =>
      left
      cases outcome with
      | ok vs => cases h
      | error e' => simpa only [Chain.stop?, hs] using h
    | sent | awake | enlisted => rw [Chain.stop?_proceed] at h; cases h
    | _ => cases h
  | advanced _ ha hr =>
    rw [Chain.stop?_of_onward (Chain.steps_of_advance ha hr).onward] at h
    cases h
  | stopped hmv ha hr =>
    cases stop?_stopChain h
    subst hmv
    exact .inr ⟨_, .alone hc (Chain.raises_of_advance ha hr)⟩

end Machine

end Flowgraph
