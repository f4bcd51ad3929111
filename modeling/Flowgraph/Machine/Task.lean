import Flowgraph.Machine.Basic

/-!
# Tasks

A task is a chain of its own, which is spawned by another chain. The launcher numbers tasks,
counts those that are live, keeps the chains that are still to be joined, and records the faults
of tasks that were aborted. A task needs a thread of the system, which may be refused: then there
is no task, its number stays used, and the chain that wanted to spawn it stops.
-/

namespace Flowgraph

namespace Machine

/-- Reserve a number for a new task. -/
def reserve (m : Machine) (id : ChainId) (c : Chain) (callee : Callee) : Machine :=
  let task : TaskId := ⟨m.launcher.started⟩
  { m with launcher := { m.launcher with started := m.launcher.started + 1 } }.setChain id
    { c with stage := .launch task callee }

/-- Count one more task as live. -/
def count (m : Machine) : Machine :=
  { m with launcher := { m.launcher with live := m.launcher.live + 1 } }

/-- Count one task less as live. -/
def discount (m : Machine) : Machine :=
  { m with launcher := { m.launcher with live := m.launcher.live - 1 } }

/-- Start a task on a chain of its own. -/
def grant (m : Machine) (id : ChainId) (c : Chain) (task : TaskId) (callee : Callee) : Machine :=
  let (child, m) := m.count.addChain (.ofTask task callee)
  m.setChain id { c with stage := .enlist child }

/-- Do not start a task, whose thread is refused. It was counted before the thread was asked for. -/
def refuse (m : Machine) (id : ChainId) (c : Chain) (message : String) : Machine :=
  m.count.setChain id { c with stage := .withdraw message }

/-- Ask the system for a thread, and start a task if there is one. -/
def launch (m : Machine) (id : ChainId) (c : Chain) (task : TaskId) (callee : Callee) :
    Machine :=
  match m.program.config.refusal? task.index with
  | none => m.grant id c task callee
  | some message => m.refuse id c message

/-- Take back that a task is counted whose thread was refused. -/
def withdraw (m : Machine) (id : ChainId) (c : Chain) (message : String) : Machine :=
  m.discount.setChain id { c with stage := .abandon message }

/-- Enter a task's chain among those to be joined, and forget those that have ended. -/
def enlist (m : Machine) (id : ChainId) (c : Chain) (child : ChainId) : Machine :=
  let handles := (m.launcher.handles.filter fun h => !m.hasEnded h) ++ [child]
  { m with launcher := { m.launcher with handles := handles } }.setChain id c.proceed

/-- Wait for the next chain, or take the chains to be joined. -/
def join (m : Machine) (id : ChainId) (c : Chain) : List ChainId → Machine
  | h :: rest => if m.hasEnded h then m.setChain id { c with stage := .join rest } else m
  | [] =>
    match m.launcher.handles with
    | [] => m.setChain id (c.exit (.ok []))
    | handles =>
      { m with launcher := { m.launcher with handles := [] } }.setChain id
        { c with stage := .join handles }

/-- Record the fault of a task that was aborted. -/
def record (m : Machine) (c : Chain) (outcome : Outcome) : Machine :=
  match c.task, outcome with
  | some task, .error stop =>
    let faults := stop.recorded?.toList.map fun f => (task, f)
    { m with launcher := { m.launcher with faults := m.launcher.faults ++ faults } }
  | _, _ => m

/-- Let a task no longer count as live. -/
def retire (m : Machine) (c : Chain) : Machine :=
  if c.task.isSome then m.discount else m

end Machine

end Flowgraph
