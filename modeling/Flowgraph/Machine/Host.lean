import Flowgraph.Machine.Schedule

/-!
# The host

A host loads a graph and drives the machine: it walks from a node, calls functions, uses
channels and waits for tasks, each as a chain of its own, and between these steps it may look
at the store and change it.
-/

namespace Flowgraph

namespace Machine

/-- Load a graph into a machine. -/
def load (graph : Graph) (natives : Registry) (config : Config) (kept : Bool) :
    Except Stop Machine := do
  checkSize graph.globals maxValues
  match Program.load graph natives config with
  | .ok p => return ofProgram p kept
  | .error f => throw (.fault f)

/-- Run a chain of the host to its end, making at most `fuel` moves. There is no outcome when
the moves do not suffice or nobody can move. -/
def runChain (m : Machine) (fuel : Nat) (c : Chain) : Option Outcome × Machine :=
  let (id, m) := m.addChain c
  let m := m.drive id fuel (.fresh id.index)
  ((m.chain? id).bind Chain.outcome?, m)

/-- Walk from a node in the global frame. -/
def exec (m : Machine) (fuel : Nat) (entry : NodeId) : Option Outcome × Machine :=
  m.runChain fuel (.atNode entry)

/-- Call a function with given values. -/
def call (m : Machine) (fuel : Nat) (callee : Value) (receiver : Option Value)
    (args : List Value) : Option Outcome × Machine :=
  m.runChain fuel (.ofCall callee receiver args)

/-- Call the first top-level function of a name. -/
def callByName (m : Machine) (fuel : Nat) (name : String) (args : List Value) :
    Option Outcome × Machine :=
  match m.program.findFunc? name with
  | some f => m.call fuel f none args
  | none => (some (.error (.fault (.unknownFunction name))), m)

/-- Wait for all tasks, those included that are spawned while waiting. -/
def joinAll (m : Machine) (fuel : Nat) : Option Outcome × Machine :=
  m.runChain fuel .ofJoin

/-- Carry out an operation on the store. -/
def onStore {α : Type} (m : Machine) (op : Op α) : Except Stop α × Machine :=
  match m with
  | ⟨program, store, chains, launcher, waiting, clock⟩ =>
    match op store with
    | .ok a store => (.ok a, ⟨program, store, chains, launcher, waiting, clock⟩)
    | .error e store => (.error e, ⟨program, store, chains, launcher, waiting, clock⟩)

/-- The recorded faults, which are then forgotten. -/
def takeFaults (m : Machine) : List (TaskId × Fault) × Machine :=
  (m.launcher.faults, { m with launcher := { m.launcher with faults := [] } })

/-- What was printed since the output was last taken. -/
def takeOutput (m : Machine) : String × Machine :=
  (m.store.output.text,
    { m with store := { m.store with output := m.store.output.cleared } })

/-- The contents of all global slots. -/
def globals (m : Machine) : List Value := (m.store.slots globalFrame).toList

end Machine

end Flowgraph
