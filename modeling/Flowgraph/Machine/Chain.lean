import Flowgraph.Operation

/-!
# Chains of activations

A chain is what one thread of the program does: a stack of walks, each through the body of one
function, and the stage that the topmost walk is in. Stages are as fine as other chains can
tell them apart: a chain that sends, receives, spawns or ends does so in several stages, and
other chains may act between them.
-/

namespace Flowgraph

/-- A chain of the machine. -/
structure ChainId where
  index : Nat
  deriving DecidableEq, Repr, Inhabited

/-- A spawned task, numbered in the order of spawning. -/
structure TaskId where
  index : Nat
  deriving DecidableEq, Repr, Inhabited

/-- How a chain ends: early, or with results. -/
abbrev Outcome := Except Stop (List Value)

/-- One activation on its way through its function. -/
structure Walk where
  activation : Activation
  /-- The node that is reached, or none at the end. -/
  node : Option NodeId
  /-- How many calls of declared functions this activation is nested in, itself included. -/
  depth : Nat
  deriving Repr, Inhabited

/-- How far a sending chain has come. -/
inductive SendPhase where
  /-- See whether the channel is closed. -/
  | check
  /-- Hand the value over if somebody can take it, or join those who wait. -/
  | offer
  /-- Wait for somebody to take the value, or for the channel to be closed. -/
  | parked
  deriving DecidableEq, Repr, Inhabited

/-- How far a receiving chain has come. -/
inductive ReceivePhase where
  /-- Take a value if there is one. -/
  | attempt
  /-- See whether the channel is closed. -/
  | check
  /-- Take a value if there is one, or join those who wait. -/
  | offer
  /-- Wait for a value, or for the channel to be closed. -/
  | parked
  /-- Take what a closed channel still buffers. -/
  | drain
  deriving DecidableEq, Repr, Inhabited

/-- What a chain does next. -/
inductive Stage where
  /-- Perform the node that is reached, or end the topmost walk. -/
  | walk
  /-- Leave the node that was performed along its edge. -/
  | follow
  /-- Call a function with given values, nested in nothing. -/
  | call (callee : Value) (receiver : Option Value) (args : List Value)
  /-- Start a bound function at a depth. -/
  | start (depth : Nat) (callee : Callee)
  /-- Hand results to the node that called. -/
  | deliver (vs : List Value)
  /-- Send a value. -/
  | send (c : ChannelId) (v : Value) (phase : SendPhase)
  /-- Receive a value. -/
  | receive (c : ChannelId) (purpose : Purpose) (phase : ReceivePhase)
  /-- Use what was received; nothing was received from a closed and drained channel. -/
  | received (purpose : Purpose) (v : Option Value)
  /-- Fall asleep for a time. -/
  | pause (milliseconds : Nat)
  /-- Sleep until a point in time, which is given in microseconds. -/
  | sleep (wake : Nat)
  /-- Reserve a number for a new task. -/
  | spawn (callee : Callee)
  /-- Start the task whose number is reserved, if the system has a thread for it. -/
  | launch (task : TaskId) (callee : Callee)
  /-- Take back that a task counts as live, since the system has refused its thread. -/
  | withdraw (message : String)
  /-- Stop, since a task could not be started. -/
  | abandon (message : String)
  /-- Enter the new task's chain among those to be joined. -/
  | enlist (chain : ChainId)
  /-- Wait for chains to end; when all have ended, take the next ones to be joined. -/
  | join (chains : List ChainId)
  /-- Record how the chain ended. -/
  | exit (outcome : Outcome)
  /-- Cease to count as live. -/
  | leave (outcome : Outcome)
  | ended (outcome : Outcome)
  /-- Be inside an operation that never comes to its end. -/
  | lost
  deriving Inhabited

/-- A chain: a task that was spawned, or a step of the host. -/
structure Chain where
  task : Option TaskId := none
  walks : List Walk := []
  stage : Stage
  deriving Inhabited

namespace Chain

/-! ### How chains begin -/

/-- Walk from a node in the global frame. -/
def atNode (entry : NodeId) : Chain :=
  { walks := [⟨⟨globalFrame, entry, some entry, 0⟩, some entry, 0⟩], stage := .walk }

/-- Call a function with given values. -/
def ofCall (callee : Value) (receiver : Option Value) (args : List Value) : Chain :=
  { stage := .call callee receiver args }

/-- A spawned task. -/
def ofTask (task : TaskId) (callee : Callee) : Chain :=
  { task := some task, stage := .start 1 callee }

/-- Send on a channel. -/
def ofSend (c : ChannelId) (v : Value) : Chain := { stage := .send c v .check }

/-- Receive from a channel. -/
def ofReceive (c : ChannelId) : Chain := { stage := .receive c .result .attempt }

/-- Wait for all tasks. -/
def ofJoin : Chain := { stage := .join [] }

/-! ### How chains go on and end -/

/-- Come to the end with an outcome. -/
def exit (c : Chain) (outcome : Outcome) : Chain :=
  { c with walks := [], stage := .exit outcome }

/-- The operation that the chain was in is complete. -/
def proceed (c : Chain) : Chain :=
  if c.walks.isEmpty then c.exit (.ok []) else { c with stage := .follow }

/-- The outcome of a chain that has ended. -/
def outcome? (c : Chain) : Option Outcome :=
  match c.stage with
  | .ended outcome => some outcome
  | _ => none

/-- Whether a chain has ended. -/
def hasEnded (c : Chain) : Bool := c.outcome?.isSome

end Chain

end Flowgraph
