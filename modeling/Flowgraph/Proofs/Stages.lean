import Mathlib.Tactic.Common
import Flowgraph.Proofs.Guarantee
import Flowgraph.Proofs.Steps

/-!
# Stages fit nodes

A chain that calls, or takes up results, is at a call; a chain that receives is at a node that
receives. All walks but the topmost one are at calls, in which the walks above them began. This
holds of chains at their beginning, and every move keeps it.

`Chain.Steps` lists what a chain makes of itself by a step of its own. Whatever is known of these
steps is proved along this list.
-/

namespace Flowgraph

variable {p : Program}

/-! ### Operations and stages -/

/-- The kind of node that a value is received for. -/
def Purpose.kind : Purpose → Kind
  | result => .receive
  | visit _ => .range

/-- What is left to be done suits a kind of node. -/
def Pending.Fits (k : Kind) : Pending → Prop
  | send _ _ => k = .send
  | receive _ purpose => k = purpose.kind
  | call _ => k = .call
  | spawn _ => k = .spawn
  | _ => True

/-- Nothing is asked of a computation. -/
lemma Op.keeps_any {α : Type} (x : Op α) :
    Op.Keeps (fun _ => True) (fun _ => True) x fun _ => True := by
  intro s _
  cases x s with
  | ok a s' => exact ⟨trivial, trivial⟩
  | error e s' => exact ⟨trivial, trivial⟩

namespace Program

variable {f : FrameId} {id : NodeId}

lemma fits_completely {k : Kind} (x : Op Unit) :
    Op.Keeps (fun _ => True) (fun _ => True) (completely x) (Pending.Fits k) :=
  .bind x.keeps_any fun _ _ => .pure trivial

lemma fits_iteration (iteration : Iteration) :
    Op.Keeps (fun _ => True) (fun _ => True)
      (match iteration with
      | .visit key value next => do p.visit f id key value next; return Pending.done
      | .finished => do p.finish f id; return Pending.done
      | .await c next => return .receive c (.visit next))
      (Pending.Fits .range) := by
  cases iteration with
  | visit key value next => exact .bind (Op.keeps_any _) fun _ _ => .pure trivial
  | finished => exact .bind (Op.keeps_any _) fun _ _ => .pure trivial
  | await c next => exact .pure rfl

lemma fits_range :
    Op.Keeps (fun _ => True) (fun _ => True) (p.range f id) (Pending.Fits .range) := by
  refine .bind (Op.keeps_any _) fun slot _ => .bind (Op.keeps_any _) fun _ _ => ?_
  refine .bind (Op.keeps_any _) fun _ _ => .bind (Op.keeps_any _) fun collection _ => ?_
  refine .get fun t _ => ?_
  dsimp only
  split
  · refine .bind (Op.keeps_any _) fun position _ => ?_
    split
    · exact .bind (Op.keeps_any _) fun iteration _ => fits_iteration iteration
    · refine .bind (Op.keeps_any _) fun i _ => .bind (Op.keeps_any _) fun iteration _ => ?_
      exact fits_iteration iteration
  · exact .throw_bind trivial

/-- What an operation leaves to be done suits the kind of the node. -/
lemma fits_operation (k : Kind) :
    Op.Keeps (fun _ => True) (fun _ => True) (p.operation f id k) (Pending.Fits k) := by
  cases k
  case receive =>
    refine .look (.bind (Look.gives_any _) fun v _ => ?_)
    exact .bind (Look.gives_any _) fun c _ => .pure rfl
  case send =>
    refine .look (.bind (Look.gives_any _) fun v _ => .bind (Look.gives_any _) fun w _ => ?_)
    exact .bind (Look.gives_any _) fun c _ => .pure rfl
  case sleep =>
    refine .look (.bind (Look.gives_any _) fun v _ => ?_)
    refine .bind (Look.gives_any _) fun n _ => .pure ?_
    split_ifs <;> exact trivial
  case range => exact fits_range
  case call => exact .bind (Op.keeps_any _) fun callee _ => .pure rfl
  case spawn => exact .bind (Op.keeps_any _) fun callee _ => .pure rfl
  all_goals first | exact .pure trivial | exact fits_completely _

/-- What a node leaves to be done suits its kind. -/
lemma fits_perform :
    Op.Keeps (fun _ => True) (fun _ => True) (p.perform f id)
      fun pending => ∃ n, p.node id = .ok n ∧ pending.Fits n.kind := by
  refine .bind (.lift (ends_any _)) fun n hn => ?_
  exact (fits_operation n.kind).mono fun pending hfits => ⟨n, hn, hfits⟩

lemma fits_of_perform {s t : Store} {pending : Pending}
    (h : p.perform f id s = .ok pending t) : ∃ n, p.node id = .ok n ∧ pending.Fits n.kind := by
  have hfits := @fits_perform p f id s trivial
  rw [h] at hfits
  exact hfits.2

end Program

/-! ### Steps of a chain by itself -/

/-- In a store, the next step of a chain leads to a chain and leaves a store behind. -/
inductive Chain.Steps (p : Program) (s : Store) (c : Chain) : Chain → Store → Prop
  /-- There is nothing to walk. -/
  | nothing (hs : c.stage = .walk) (hw : c.walks = []) : Steps p s c (c.exit (.ok [])) s
  /-- At the end of a function, its results are read. -/
  | results {w : Walk} {rest : List Walk} {vs : List Value} (hs : c.stage = .walk)
    (hw : c.walks = w :: rest) (hn : w.node = none)
    (h : Program.results w.activation s = .ok vs) :
    Steps p s c { c with walks := rest, stage := .deliver vs } s
  /-- The node that is reached is performed. -/
  | operation {w : Walk} {rest : List Walk} {id : NodeId} {pending : Pending} {t : Store}
    (hs : c.stage = .walk) (hw : c.walks = w :: rest) (hn : w.node = some id)
    (h : p.perform w.activation.frame id s = .ok pending t) :
    Steps p s c { c with stage := stageAfter w.depth pending } t
  /-- The node is left along an edge. -/
  | edge {a : Activation} {id : NodeId} {depth : Nat} {rest : List Walk} {next : Option NodeId}
    (hs : c.stage = .follow) (hw : c.walks = ⟨a, some id, depth⟩ :: rest)
    (h : p.successor a.frame id s = .ok next) :
    Steps p s c { c with walks := ⟨a, next, depth⟩ :: rest, stage := .walk } s
  /-- There is no node to be left. -/
  | nowhere (hs : c.stage = .follow)
    (hw : ∀ a id depth rest, c.walks ≠ ⟨a, some id, depth⟩ :: rest) :
    Steps p s c { c with stage := .walk } s
  /-- A call that was given its values is bound. -/
  | binding {f : Value} {receiver : Option Value} {args : List Value} {callee : Callee} {t : Store}
    (hs : c.stage = .call f receiver args) (h : p.bindValues f receiver args s = .ok callee t) :
    Steps p s c { c with stage := .start 1 callee } t
  /-- A function is entered that is nested no deeper than the limit. -/
  | enter {depth : Nat} {a : Activation} (hs : c.stage = .start depth (.declared a))
    (h : ∀ limit, p.config.maxCallDepth = some limit → depth ≤ limit) :
    Steps p s c (c.enter a depth) s
  /-- A native gives results. -/
  | native {depth : Nat} {name : String} {args vs : List Value} {symbol : Symbol}
    (hs : c.stage = .start depth (.native name args)) (hname : p.natives.symbol? name = some symbol)
    (h : symbol.run p.config s args = .results vs) : Steps p s c { c with stage := .deliver vs } s
  /-- A native prints and gives results. -/
  | print {depth : Nat} {name line : String} {args vs : List Value} {symbol : Symbol}
    (hs : c.stage = .start depth (.native name args)) (hname : p.natives.symbol? name = some symbol)
    (h : symbol.run p.config s args = .print line vs) :
    Steps p s c { c with stage := .deliver vs } (s.writeLine line)
  /-- A native calls. -/
  | call {depth : Nat} {name : String} {args args' : List Value} {symbol : Symbol} {f : Value}
    (hs : c.stage = .start depth (.native name args)) (hname : p.natives.symbol? name = some symbol)
    (h : symbol.run p.config s args = .call f args') :
    Steps p s c { c with stage := .call f none args' } s
  /-- The node that called takes the results. -/
  | copy {a : Activation} {id : NodeId} {depth : Nat} {rest : List Walk} {vs : List Value}
    {t : Store} (hs : c.stage = .deliver vs) (hw : c.walks = ⟨a, some id, depth⟩ :: rest)
    (h : p.storeResults a.frame id vs s = .ok () t) : Steps p s c { c with stage := .follow } t
  /-- Whoever waits for the chain takes the results. -/
  | handed {vs : List Value} (hs : c.stage = .deliver vs)
    (hw : ∀ a id depth rest, c.walks ≠ ⟨a, some id, depth⟩ :: rest) :
    Steps p s c (c.exit (.ok vs)) s
  /-- A node takes what was received. -/
  | storing {a : Activation} {id : NodeId} {depth : Nat} {rest : List Walk} {v : Option Value}
    {t : Store} (hs : c.stage = .received .result v) (hw : c.walks = ⟨a, some id, depth⟩ :: rest)
    (h : p.storeReceived a.frame id v s = .ok () t) : Steps p s c { c with stage := .follow } t
  /-- A loop visits what was received. -/
  | visiting {a : Activation} {id : NodeId} {depth : Nat} {rest : List Walk} {next : Value}
    {v : Option Value} {t : Store} (hs : c.stage = .received (.visit next) v)
    (hw : c.walks = ⟨a, some id, depth⟩ :: rest)
    (h : p.visitReceived a.frame id next v s = .ok () t) :
    Steps p s c { c with stage := .follow } t
  /-- Whoever waits for the chain takes what was received. -/
  | taken {purpose : Purpose} {v : Option Value} (hs : c.stage = .received purpose v)
    (hw : ∀ a id depth rest, c.walks ≠ ⟨a, some id, depth⟩ :: rest) :
    Steps p s c (c.exit (.ok v.toList)) s

namespace Chain

variable {c d : Chain} {s t : Store}

/-- When an operation with nothing but a result after it succeeds, the operation succeeded. -/
lemma of_map_ok {α β : Type} {x : Op α} {f : α → β} {b : β}
    (h : (do return f (← x) : Op β) s = .ok b t) : ∃ a, x s = .ok a t ∧ b = f a := by
  rw [Op.bind_apply] at h
  cases hx : x s with
  | ok a u =>
    rw [hx] at h
    cases h
    exact ⟨a, rfl, rfl⟩
  | error e u =>
    rw [hx] at h
    cases h

lemma of_look_ok {α β : Type} {look : Look α} {f : α → β} {b : β}
    (h : (do return f (← liftM look) : Op β) s = .ok b t) :
    ∃ a, look s = .ok a ∧ b = f a ∧ t = s := by
  rw [Op.look_bind_apply] at h
  cases hx : look s with
  | ok a =>
    rw [hx] at h
    cases h
    exact ⟨a, rfl, rfl, rfl⟩
  | error e =>
    rw [hx] at h
    cases h

/-- A chain is at a node, or its walks have come to their end. -/
lemma at_node_or (c : Chain) : (∃ a id depth rest, c.walks = ⟨a, some id, depth⟩ :: rest) ∨
    ∀ a id depth rest, c.walks ≠ ⟨a, some id, depth⟩ :: rest := by
  by_cases h : ∃ a id depth rest, c.walks = ⟨a, some id, depth⟩ :: rest
  · exact .inl h
  · exact .inr fun a id depth rest hw => h ⟨a, id, depth, rest, hw⟩

lemma steps_walk (hs : c.stage = .walk) (h : c.walk p s = .ok d t) : c.Steps p s d t := by
  cases hw : c.walks with
  | nil =>
    simp only [walk, hw] at h
    cases h
    exact .nothing hs hw
  | cons w rest =>
    cases hn : w.node with
    | none =>
      simp only [walk, hw, hn] at h
      obtain ⟨vs, hvs, rfl, rfl⟩ := of_look_ok h
      exact .results hs hw hn hvs
    | some id =>
      simp only [walk, hw, hn] at h
      obtain ⟨pending, hpending, rfl⟩ := of_map_ok h
      rw [← hw]
      exact .operation hs hw hn hpending

lemma steps_follow (hs : c.stage = .follow) (h : c.follow p s = .ok d t) : c.Steps p s d t := by
  rcases c.at_node_or with ⟨a, id, depth, rest, hw⟩ | hw
  · simp only [follow, hw] at h
    obtain ⟨next, hnext, rfl, rfl⟩ := of_look_ok h
    exact .edge hs hw hnext
  · have hfollow : c.follow p = pure { c with stage := .walk } := by
      simp only [follow]
    rw [hfollow] at h
    cases h
    exact .nowhere hs hw

lemma steps_start {depth : Nat} {callee : Callee} (hs : c.stage = .start depth callee)
    (h : c.start p depth callee s = .ok d t) : c.Steps p s d t := by
  cases callee with
  | declared a =>
    cases hlimit : p.config.maxCallDepth with
    | none =>
      simp only [start, hlimit] at h
      cases h
      exact .enter hs fun limit he => by rw [hlimit] at he; cases he
    | some limit =>
      simp only [start, hlimit] at h
      split_ifs at h with hdepth
      · cases h
      · cases h
        refine .enter hs fun limit' he => ?_
        rw [hlimit] at he
        cases he
        exact Nat.le_of_not_lt hdepth
  | native name args =>
    cases hname : p.natives.symbol? name with
    | none =>
      simp only [start, hname] at h
      cases h
    | some symbol =>
      simp only [start, hname, Op.bind_apply, Op.get_apply] at h
      cases hreply : symbol.run p.config s args with
      | stop e =>
        simp only [hreply, reply] at h
        cases h
      | results vs =>
        simp only [hreply, reply] at h
        cases h
        exact .native hs hname hreply
      | print line vs =>
        simp only [hreply, reply] at h
        cases h
        exact .print hs hname hreply
      | call f vs =>
        simp only [hreply, reply] at h
        cases h
        exact .call hs hname hreply

lemma steps_deliver {vs : List Value} (hs : c.stage = .deliver vs)
    (h : c.deliver p vs s = .ok d t) : c.Steps p s d t := by
  rcases c.at_node_or with ⟨a, id, depth, rest, hw⟩ | hw
  · simp only [deliver, hw] at h
    obtain ⟨u, hstore, rfl⟩ := of_map_ok h
    rw [← hw]
    exact .copy hs hw hstore
  · have hdeliver : c.deliver p vs = pure (c.exit (.ok vs)) := by
      simp only [deliver]
    rw [hdeliver] at h
    cases h
    exact .handed hs hw

lemma steps_received {purpose : Purpose} {v : Option Value} (hs : c.stage = .received purpose v)
    (h : c.received p purpose v s = .ok d t) : c.Steps p s d t := by
  rcases c.at_node_or with ⟨a, id, depth, rest, hw⟩ | hw
  · cases purpose with
    | result =>
      simp only [received, hw] at h
      obtain ⟨u, hstore, rfl⟩ := of_map_ok h
      rw [← hw]
      exact .storing hs hw hstore
    | visit next =>
      simp only [received, hw] at h
      obtain ⟨u, hvisit, rfl⟩ := of_map_ok h
      rw [← hw]
      exact .visiting hs hw hvisit
  · have hreceived : c.received p purpose v = pure (c.exit (.ok v.toList)) := by
      simp only [received]
    rw [hreceived] at h
    cases h
    exact .taken hs hw

/-- `Steps` lists all that the next step of a chain can lead to. -/
theorem steps_of_advance {step : Op Chain} (ha : c.advance p = some step)
    (h : step s = .ok d t) : c.Steps p s d t := by
  simp only [advance] at ha
  split at ha <;> cases ha
  case h_1 hs => exact steps_walk hs h
  case h_2 hs => exact steps_follow hs h
  case h_3 hs =>
    obtain ⟨callee, hbind, rfl⟩ := of_map_ok h
    exact .binding hs hbind
  case h_4 hs => exact steps_start hs h
  case h_5 hs => exact steps_deliver hs h
  case h_6 hs => exact steps_received hs h
  case h_7 => cases h

/-- Every step in the list is the chain's next one. -/
theorem Steps.advance (h : c.Steps p s d t) :
    ∃ step, c.advance p = some step ∧ step s = .ok d t := by
  cases h with
  | nothing hs hw =>
    refine ⟨_, by rw [Chain.advance, hs], ?_⟩
    simp only [walk, hw, Op.pure_apply]
  | results hs hw hn h =>
    refine ⟨_, by rw [Chain.advance, hs], ?_⟩
    simp only [walk, hw, hn, Op.look_bind_apply, h, Op.pure_apply]
  | operation hs hw hn h =>
    refine ⟨_, by rw [Chain.advance, hs], ?_⟩
    simp only [walk, hw, hn, Op.bind_apply, h, Op.pure_apply]
  | edge hs hw h =>
    refine ⟨_, by rw [Chain.advance, hs], ?_⟩
    simp only [follow, hw, Op.look_bind_apply, h, Op.pure_apply]
  | nowhere hs hw =>
    refine ⟨_, by rw [Chain.advance, hs], ?_⟩
    simp only [follow, Op.pure_apply]
  | binding hs h =>
    refine ⟨_, by rw [Chain.advance, hs], ?_⟩
    simp only [Op.bind_apply, h, Op.pure_apply]
  | @enter depth a hs hdepth =>
    refine ⟨_, by rw [Chain.advance, hs], ?_⟩
    cases hlimit : p.config.maxCallDepth with
    | none => simp only [start, hlimit, Op.pure_apply]
    | some limit =>
      have hle := Nat.not_lt.mpr (hdepth limit hlimit)
      simp only [start, hlimit, if_neg hle, Op.pure_apply]
  | native hs hname h | call hs hname h =>
    refine ⟨_, by rw [Chain.advance, hs], ?_⟩
    simp only [start, hname, Op.bind_apply, Op.get_apply, h, reply, Op.pure_apply]
  | print hs hname h =>
    refine ⟨_, by rw [Chain.advance, hs], ?_⟩
    simp only [start, hname, Op.bind_apply, Op.get_apply, h, reply]
    rfl
  | copy hs hw h =>
    refine ⟨_, by rw [Chain.advance, hs], ?_⟩
    simp only [deliver, hw, Op.bind_apply, h, Op.pure_apply]
  | storing hs hw h | visiting hs hw h =>
    refine ⟨_, by rw [Chain.advance, hs], ?_⟩
    simp only [received, hw, Op.bind_apply, h, Op.pure_apply]
  | handed hs hw =>
    refine ⟨_, by rw [Chain.advance, hs], ?_⟩
    simp only [deliver, Op.pure_apply]
  | taken hs hw =>
    refine ⟨_, by rw [Chain.advance, hs], ?_⟩
    simp only [received, Op.pure_apply]

end Chain

/-- What becomes of a machine when a chain makes a step by itself. -/
lemma Machine.step_of_steps {m : Machine} {x : ChainId} {c d : Chain} {t : Store}
    (hc : m.chain? x = some c) (h : c.Steps m.program m.store d t) :
    m.step (.run x) = (m.mapStore fun _ => t).setChain x d := by
  obtain ⟨step, ha, hstep⟩ := h.advance
  rw [Machine.step, run_of_advance hc ha, stepChain_eq, hstep]

/-! ### Chains -/

/-- A walk has reached a node of some kind. -/
def Walk.At (p : Program) (k : Kind) (w : Walk) : Prop :=
  ∃ id n, w.node = some id ∧ p.node id = .ok n ∧ n.kind = k

/-- The kind of node that a chain is at in a stage, where only one kind will do. -/
def Stage.kind? : Stage → Option Kind
  | .call _ _ _ | .start _ _ | .deliver _ => some .call
  | .receive _ purpose _ | .received purpose _ => some purpose.kind
  | _ => none

/-- The stage of a chain suits the node that it is at, and suspended walks are at calls. -/
structure Chain.Fits (p : Program) (c : Chain) : Prop where
  suspended : ∀ w ∈ c.walks.tail, w.At p .call
  stage : ∀ k w, c.stage.kind? = some k → c.walks.head? = some w → w.At p k

namespace Chain

variable {c c' : Chain} {s t : Store}

/-- Without walks, every stage fits. -/
lemma fits_of_walks (h : c.walks = []) : c.Fits p where
  suspended w hw := by
    simp [h] at hw
  stage k w _ hw := by
    simp [h] at hw

/-- The same walks, in a stage that asks for no more. -/
lemma Fits.restage (h : c.Fits p) {stage : Stage}
    (hs : ∀ k, stage.kind? = some k → c.stage.kind? = some k) :
    ({ c with stage := stage } : Chain).Fits p where
  suspended := h.suspended
  stage k w hk hw := h.stage k w (hs k hk) hw

lemma Fits.free (h : c.Fits p) {stage : Stage} (hs : stage.kind? = none) :
    ({ c with stage := stage } : Chain).Fits p :=
  h.restage fun k hk => by rw [hs] at hk; cases hk

lemma fits_exit (outcome : Outcome) : (c.exit outcome).Fits p := fits_of_walks rfl

lemma Fits.proceed (h : c.Fits p) : c.proceed.Fits p := by
  simp only [Chain.proceed]
  split_ifs
  · exact fits_exit _
  · exact h.free rfl

lemma Fits.stopChain (h : c.Fits p) (e : Stop) : (Machine.stopChain c e).Fits p := by
  cases e with
  | endless => exact h.free rfl
  | fault f => exact fits_exit _
  | panic text => exact fits_exit _

/-- Whatever protocols make of a chain, it fits. -/
lemma Fits.restaged {m : Machine} (h : c.Fits p) (hr : m.Restaged c c') : c'.Fits p := by
  cases hr with
  | sending next hs => exact h.free rfl
  | refused hs => exact fits_exit _
  | sent hs => exact h.proceed
  | receiving next hs => exact h.restage fun k hk => by rw [hs]; exact hk
  | received hs hv => exact h.restage fun k hk => by rw [hs]; exact hk
  | asleep hs => exact h.free rfl
  | awake hs => exact h.proceed
  | reserved hs => exact h.free rfl
  | launched hs => exact h.free rfl
  | denied hs => exact h.free rfl
  | withdrawn hs => exact h.free rfl
  | enlisted hs => exact h.proceed
  | joining hs => exact h.free rfl
  | joined hs => exact fits_exit _
  | leaving hs => exact h.free rfl
  | ended hs => exact h.free rfl

/-! ### Steps that fit -/

lemma fits_enter (h : c.Fits p) (hk : c.stage.kind? = some .call) (a : Activation)
    (depth : Nat) : (c.enter a depth).Fits p where
  suspended w hw := by
    have hw : w ∈ c.walks := hw
    cases hwalks : c.walks with
    | nil =>
      simp [hwalks] at hw
    | cons w' rest =>
      rw [hwalks] at hw
      rcases List.mem_cons.mp hw with rfl | hw
      · exact h.stage .call w hk (by rw [hwalks]; rfl)
      · exact h.suspended w (by rw [hwalks]; exact hw)
  stage k w hk _ := by cases hk

/-- The walk below a walk that has ended is at a call. -/
lemma Fits.returned (h : c.Fits p) {w : Walk} {rest : List Walk} (hw : c.walks = w :: rest)
    (vs : List Value) : ({ c with walks := rest, stage := .deliver vs } : Chain).Fits p := by
  have hrest : ∀ w ∈ rest, w.At p .call := by
    have hsuspended := h.suspended
    rwa [hw] at hsuspended
  constructor
  · exact fun w hw => hrest w (List.mem_of_mem_tail hw)
  · intro k w hk hw
    cases hk
    exact hrest w (List.mem_of_head? hw)

/-- What a node leaves to be done suits the node. -/
lemma Fits.performed (h : c.Fits p) {w : Walk} {rest : List Walk} {id : NodeId} {pending : Pending}
    (hw : c.walks = w :: rest) (hn : w.node = some id)
    (hperform : p.perform w.activation.frame id s = .ok pending t) :
    ({ c with stage := stageAfter w.depth pending } : Chain).Fits p := by
  obtain ⟨n, hnode, hfits⟩ := Program.fits_of_perform hperform
  refine ⟨h.suspended, fun k w' hk hw' => ?_⟩
  rw [hw] at hw'
  cases hw'
  refine ⟨id, n, hn, hnode, ?_⟩
  cases pending with
  | receive ch purpose =>
    cases hk
    exact hfits
  | call callee =>
    cases hk
    exact hfits
  | _ => cases hk

/-- When a chain fits, it fits after every step of its own. -/
theorem Steps.fits (h : c.Steps p s c' t) (hc : c.Fits p) : c'.Fits p := by
  have hcalls : c.stage.kind? = some .call → ∀ stage : Stage, stage.kind? = some .call →
      ({ c with stage := stage } : Chain).Fits p := fun hk stage hs =>
    hc.restage fun k hk' => by rw [hk, ← hk', hs]
  cases h with
  | nothing hs hw => exact fits_exit _
  | results hs hw hn hvs => exact hc.returned hw _
  | operation hs hw hn hperform => exact hc.performed hw hn hperform
  | edge hs hw hnext =>
    refine ⟨?_, fun k w hk _ => by cases hk⟩
    have hsuspended := hc.suspended
    rwa [hw] at hsuspended
  | nowhere hs hw => exact hc.free rfl
  | binding hs hbind => exact hcalls (by rw [hs]; rfl) _ rfl
  | enter hs hlimit => exact fits_enter hc (by rw [hs]; rfl) _ _
  | native hs | print hs | call hs => exact hcalls (by rw [hs]; rfl) _ rfl
  | copy | storing | visiting => exact hc.free rfl
  | handed | taken => exact fits_exit _

end Chain

/-! ### Machines -/

namespace Machine

/-- Every chain of a machine fits. -/
def Fits (m : Machine) : Prop := ∀ x c, m.chain? x = some c → c.Fits m.program

lemma program_step (m : Machine) (mv : Move) : (m.step mv).program = m.program := by
  rcases m.step_cases mv with h | ⟨id, c, step, -, -, -, h⟩
  · exact h.program
  · rw [h, stepChain]
    split <;> rfl

lemma of_chain?_stepChain {m : Machine} {id x : ChainId} {c c' : Chain} {step : Op Chain}
    (h : (m.stepChain id c step).chain? x = some c') :
    m.chain? x = some c' ∨ x = id ∧ match step m.store with
      | .ok d _ => c' = d
      | .error e _ => c' = stopChain c e := by
  simp only [stepChain] at h
  cases hs : step m.store with
  | ok d s =>
    simp only [hs] at h
    exact of_chain?_setChain h
  | error e s =>
    simp only [hs] at h
    exact of_chain?_setChain h

/-- When a chain fits, it fits after every move. -/
lemma fits_step {m : Machine} {x : ChainId} (h : ∀ c, m.chain? x = some c → c.Fits m.program)
    (mv : Move) : ∀ c, (m.step mv).chain? x = some c → c.Fits m.program := by
  intro c' hx
  rcases m.step_cases mv with hp | ⟨id, c, step, -, hc, ha, he⟩
  · rcases hp.chains x c' hx with hx | ⟨c, hc, hr⟩ | ⟨y, c, task, callee, -, hc, hs, -, rfl⟩
    · exact h c' hx
    · exact (h c hc).restaged hr
    · exact Chain.fits_of_walks rfl
  · rw [he] at hx
    rcases of_chain?_stepChain hx with hx | ⟨rfl, hd⟩
    · exact h c' hx
    · cases hstep : step m.store with
      | ok d s =>
        rw [hstep] at hd
        rw [hd]
        exact (Chain.steps_of_advance ha hstep).fits (h c hc)
      | error e s =>
        rw [hstep] at hd
        rw [hd]
        exact (h c hc).stopChain e

lemma Fits.step {m : Machine} (h : m.Fits) (mv : Move) : (m.step mv).Fits := by
  intro x c hx
  rw [program_step]
  exact fits_step (h x) mv c hx

lemma fits_hosted {c : Chain} (h : c.Hosted) : c.Fits p := by
  cases h with
  | atNode entry =>
    constructor
    · intro w hw
      cases hw
    · intro k w hk _
      cases hk
  | _ => exact Chain.fits_of_walks rfl

lemma Fits.addChain {m : Machine} (h : m.Fits) {c : Chain} (hc : c.Fits m.program) :
    (m.addChain c).2.Fits := by
  intro x d hd
  rw [chain?_addChain_eq] at hd
  split_ifs at hd
  · cases hd
    exact hc
  · exact h x d hd

end Machine

end Flowgraph
