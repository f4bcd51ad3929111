import Mathlib.Logic.Function.Iterate
import Mathlib.Tactic.Common
import Flowgraph.Proofs.Stages
import Flowgraph.Proofs.Streams.Loop

/-!
# Walks from node to node

A chain performs a node in one move and leaves it along its edge in another. While nobody else
moves, it goes from node to node in this way, until an operation takes it elsewhere or stops it.
-/

namespace Flowgraph

namespace Program

variable {p : Program} {f : FrameId} {id c : NodeId} {n : Node} {i : Nat} {s : Store}

/-! ### Nodes and their edges -/

lemma child_of_node (hn : p.node id = .ok n) (hc : n.child? i = some c) : p.child id i = .ok c := by
  simp only [child, hn, bind, Except.bind, hc]

lemma operand_of_node (hn : p.node id = .ok n) (hc : n.child? i = some c) (f : FrameId)
    (s : Store) : p.operand f id i s = p.value f c s := by
  change (p.child id i >>= fun c => p.value f c s) = _
  rw [child_of_node hn hc]
  rfl

/-- A literal is read as the value that it stands for. -/
lemma value_of_literal {v : Value} (hn : p.node id = .ok n) (hk : n.kind = .basicLit)
    (hv : p.constant? id = some v) (f : FrameId) (s : Store) : p.value f id s = .ok v := by
  refine (Look.bind_ok hn).trans ?_
  rw [if_pos (.inl hk), hv]
  rfl

/-- A node with one edge is left along it. -/
lemma successor_of_next (hn : p.node id = .ok n) (ho : n.otherwise = none) (f : FrameId)
    (s : Store) : p.successor f id s = .ok n.next := by
  refine (Look.bind_ok hn).trans ?_
  rw [ho]
  rfl

/-- A node with two edges is left as its own value says. -/
lemma successor_of_bool {b : Bool} (hn : p.node id = .ok n) (ho : n.otherwise = some c)
    (hv : p.value f id s = .ok (.bool b)) :
    p.successor f id s = .ok (if b then n.next else some c) := by
  refine (Look.bind_ok hn).trans ?_
  rw [ho]
  have hbool : (liftM ((Value.bool b).asBool "branch") : Look Bool) s = .ok b := rfl
  refine (Look.bind_ok hv).trans ((Look.bind_ok hbool).trans ?_)
  cases b <;> rfl

end Program

/-! ### Routes -/

/-- A walk on its way through the body of a function, wherever it is: the chain that makes it, its
activation with its depth, and the walks that wait below it. -/
structure Route where
  chain : ChainId
  task : Option TaskId
  activation : Activation
  depth : Nat
  below : List Walk

namespace Route

/-- The frame that the walk works in. -/
def frame (r : Route) : FrameId := r.activation.frame

/-- The chain when its walk has reached a node, or its end. -/
def reached (r : Route) (id : Option NodeId) : Chain :=
  { task := r.task, walks := ⟨r.activation, id, r.depth⟩ :: r.below, stage := .walk }

end Route

namespace Machine

variable {m : Machine} {r : Route} {id : NodeId} {here next : Option NodeId} {s t : Store}
  {e : Stop}

/-- The machine after a chain has made so many moves, and nobody else has made any. -/
def moved (m : Machine) (x : ChainId) (k : Nat) : Machine := (fun m => m.step (.run x))^[k] m

@[simp] lemma moved_zero (m : Machine) (x : ChainId) : m.moved x 0 = m := rfl

lemma moved_one (m : Machine) (x : ChainId) : m.moved x 1 = m.step (.run x) := rfl

lemma moved_add (m : Machine) (x : ChainId) (j k : Nat) :
    m.moved x (j + k) = (m.moved x j).moved x k := by
  rw [moved, Nat.add_comm, Function.iterate_add_apply]
  rfl

/-- A walk has reached a node, or its end. -/
def At (m : Machine) (r : Route) (id : Option NodeId) : Prop :=
  m.chain? r.chain = some (r.reached id)

/-- The machine when a walk has reached a node, or its end, with a store. -/
def arrive (m : Machine) (r : Route) (s : Store) (id : Option NodeId) : Machine :=
  (m.mapStore fun _ => s).setChain r.chain (r.reached id)

@[simp] lemma store_arrive : (m.arrive r s here).store = s := rfl

@[simp] lemma program_arrive : (m.arrive r s here).program = m.program := rfl

lemma At.arrive (h : m.At r here) : (m.arrive r s next).At r next :=
  chain?_setChain_self (m := m.mapStore fun _ => s) h

@[simp] lemma arrive_arrive : (m.arrive r s here).arrive r t next = m.arrive r t next := by
  simp only [Machine.arrive, setChain, mapStore, Array.setIfInBounds_setIfInBounds]

/-- A walk arrives where it is. -/
lemma At.arrive_self (h : m.At r here) : m.arrive r m.store here = m := by
  obtain ⟨hlt, hget⟩ := Array.getElem?_eq_some_iff.mp h
  have hsame : m.chains.setIfInBounds r.chain.index (r.reached here) = m.chains := by
    rw [← hget, Array.setIfInBounds, dif_pos hlt, Array.set_getElem_self]
  simp only [Machine.arrive, setChain, mapStore, hsame]

/-- A step that a chain makes by itself. -/
lemma step_of_ok {x : ChainId} {c d : Chain} {op : Op Chain} (hc : m.chain? x = some c)
    (ha : c.advance m.program = some op) (hop : op m.store = .ok d t) :
    m.step (.run x) = (m.mapStore fun _ => t).setChain x d := by
  rw [step, run_of_advance hc ha, stepChain_eq, hop]

/-- A step of a chain by itself that stops it. -/
lemma step_of_error {x : ChainId} {c : Chain} {op : Op Chain} (hc : m.chain? x = some c)
    (ha : c.advance m.program = some op) (hop : op m.store = .error e t) :
    m.step (.run x) = (m.mapStore fun _ => t).setChain x (stopChain c e) := by
  rw [step, run_of_advance hc ha, stepChain_eq, hop]

/-- A walk performs a node. -/
lemma At.step_ok {pending : Pending} (h : m.At r (some id))
    (hperform : m.program.perform r.frame id m.store = .ok pending t) :
    m.step (.run r.chain) = (m.mapStore fun _ => t).setChain r.chain
      { r.reached (some id) with stage := Chain.stageAfter r.depth pending } :=
  step_of_steps h (.operation (w := ⟨r.activation, some id, r.depth⟩) rfl rfl rfl hperform)

/-- A walk comes to a node that stops it. -/
lemma At.step_error (h : m.At r (some id))
    (hperform : m.program.perform r.frame id m.store = .error e t) :
    m.step (.run r.chain) =
      (m.mapStore fun _ => t).setChain r.chain (stopChain (r.reached (some id)) e) := by
  refine step_of_error h rfl ?_
  change (m.program.perform r.frame id >>= _) m.store = _
  rw [Op.bind_apply, hperform]

/-- A walk performs a node and leaves it along its edge. -/
lemma At.moved_two (h : m.At r (some id))
    (hperform : m.program.perform r.frame id m.store = .ok .done t)
    (hnext : m.program.successor r.frame id t = .ok next) :
    m.moved r.chain 2 = m.arrive r t next := by
  have hc : ((m.mapStore fun _ => t).setChain r.chain
      { r.reached (some id) with stage := .follow }).chain? r.chain =
      some { r.reached (some id) with stage := .follow } :=
    chain?_setChain_self (m := m.mapStore fun _ => t) h
  rw [moved_add m r.chain 1 1, moved_one, moved_one, h.step_ok hperform]
  refine (step_of_steps hc (.edge rfl rfl hnext)).trans ?_
  simp only [Machine.arrive, setChain, mapStore, Array.setIfInBounds_setIfInBounds]
  rfl

end Machine

end Flowgraph
