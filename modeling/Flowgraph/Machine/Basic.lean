import Flowgraph.Machine.Advance

/-!
# Machines

A machine runs a program: it has a store, chains, and a launcher that keeps account of the
tasks. Time is a number of microseconds that only grows.
-/

namespace Flowgraph

/-- The account of spawned tasks. -/
structure Launcher where
  /-- How many task numbers were given out. -/
  started : Nat := 0
  /-- How many tasks have been launched and have not left. -/
  live : Nat := 0
  /-- Chains of tasks that nobody has joined yet. -/
  handles : List ChainId := []
  /-- Faults of tasks, in the order in which they were recorded. -/
  faults : List (TaskId × Fault) := []
  deriving Repr, Inhabited

/-- A program at work. -/
structure Machine where
  program : Program
  store : Store
  chains : Array Chain := #[]
  launcher : Launcher := {}
  /-- Chains that are parked on channels, in the order in which they came. -/
  waiting : List ChainId := []
  /-- The time, in microseconds. -/
  clock : Nat := 0

namespace Machine

/-- A machine that is about to run a program: its global slots are nil. -/
def ofProgram (p : Program) (kept : Bool) : Machine :=
  let store : Store := { output := { kept := kept } }
  { program := p, store := (store.newFrame p.graph.globals none).2 }

/-- The chain of that name. -/
def chain? (m : Machine) (c : ChainId) : Option Chain := m.chains[c.index]?

/-- Replace a chain. -/
def setChain (m : Machine) (id : ChainId) (c : Chain) : Machine :=
  match m with
  | ⟨program, store, chains, launcher, waiting, clock⟩ =>
    ⟨program, store, chains.setIfInBounds id.index c, launcher, waiting, clock⟩

/-- Add a chain. -/
def addChain (m : Machine) (c : Chain) : ChainId × Machine :=
  (⟨m.chains.size⟩, { m with chains := m.chains.push c })

/-- Whether a chain has ended. -/
def hasEnded (m : Machine) (id : ChainId) : Bool := (m.chain? id).any Chain.hasEnded

/-- What becomes of a chain whose operation stopped. -/
def stopChain (c : Chain) : Stop → Chain
  | .endless => { c with stage := .lost }
  | e => c.exit (.error e)

/-- Let a chain make a step of its own. When the step stops, the chain comes to its end. -/
def stepChain (m : Machine) (id : ChainId) (c : Chain) (step : Op Chain) : Machine :=
  match m with
  | ⟨program, store, chains, launcher, waiting, clock⟩ =>
    match step store with
    | .ok c store => ⟨program, store, chains.setIfInBounds id.index c, launcher, waiting, clock⟩
    | .error e store =>
      ⟨program, store, chains.setIfInBounds id.index (stopChain c e), launcher, waiting, clock⟩

/-- Change the store. -/
def mapStore (m : Machine) (change : Store → Store) : Machine :=
  match m with
  | ⟨program, store, chains, launcher, waiting, clock⟩ =>
    ⟨program, change store, chains, launcher, waiting, clock⟩

end Machine

end Flowgraph
