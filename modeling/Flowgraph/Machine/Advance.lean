import Flowgraph.Machine.Chain

/-!
# Steps of a single chain

These steps need nothing but the chain, the program and the store. A step that stops aborts the
whole chain.
-/

namespace Flowgraph

namespace Chain

/-- The stage that an operation leads to. The node that called nests what it calls one
deeper. -/
def stageAfter (depth : Nat) : Pending → Stage
  | .done => .follow
  | .send c v => .send c v .check
  | .receive c purpose => .receive c purpose .attempt
  | .sleep milliseconds => .pause milliseconds
  | .call callee => .start (depth + 1) callee
  | .spawn callee => .spawn callee

/-- Perform the node that the topmost walk has reached, or end the walk.

The frame of a walk that has ended or was aborted keeps its slots. To clear a frame to which only
closures in its own slots refer (`FrameTable.release`) gives room back and has no other effect: no
walk, no frame further in and no value elsewhere that is in use refers to such a frame
(`FrameTable.release_iff`), so its slots cannot be read any more, be they cleared or not. -/
def walk (p : Program) (c : Chain) : Op Chain :=
  match c.walks with
  | [] => return c.exit (.ok [])
  | w :: rest =>
    match w.node with
    | none => do
      let vs ← Program.results w.activation
      return { c with walks := rest, stage := .deliver vs }
    | some id => do
      let pending ← p.perform w.activation.frame id
      return { c with stage := stageAfter w.depth pending }

/-- Move the topmost walk along the edge of its node. -/
def follow (p : Program) (c : Chain) : Op Chain :=
  match c.walks with
  | ⟨a, some id, depth⟩ :: rest => do
    let next ← p.successor a.frame id
    return { c with walks := ⟨a, next, depth⟩ :: rest, stage := .walk }
  | _ => return { c with stage := .walk }

/-- Take up the reply of a native. -/
def reply (c : Chain) : Reply → Op Chain
  | .results vs => return { c with stage := .deliver vs }
  | .print line vs => do
    Op.writeLine line
    return { c with stage := .deliver vs }
  | .stop s => throw s
  | .call f args => return { c with stage := .call f none args }

/-- Begin the walk of an activation. -/
def enter (c : Chain) (a : Activation) (depth : Nat) : Chain :=
  { c with walks := ⟨a, a.entry, depth⟩ :: c.walks, stage := .walk }

/-- Start a bound function. A declared function may be nested only as deep as the limit
allows. -/
def start (p : Program) (c : Chain) (depth : Nat) : Callee → Op Chain
  | .declared a =>
    match p.config.maxCallDepth with
    | some limit =>
      if limit < depth then throw (.fault (.stackOverflow limit))
      else return c.enter a depth
    | none => return c.enter a depth
  | .native name args => do
    match p.natives.symbol? name with
    | some symbol => c.reply (symbol.run p.config (← get) args)
    | none => throw (.fault (.unknownNative name))

/-- Hand results to the node that called, or to whoever waits for the chain. -/
def deliver (p : Program) (c : Chain) (vs : List Value) : Op Chain :=
  match c.walks with
  | ⟨a, some id, _⟩ :: _ => do
    p.storeResults a.frame id vs
    return { c with stage := .follow }
  | _ => return c.exit (.ok vs)

/-- Use what was received. -/
def received (p : Program) (c : Chain) (purpose : Purpose) (v : Option Value) : Op Chain :=
  match c.walks with
  | ⟨a, some id, _⟩ :: _ => do
    match purpose with
    | .result => p.storeReceived a.frame id v
    | .visit next => p.visitReceived a.frame id next v
    return { c with stage := .follow }
  | _ => return c.exit (.ok v.toList)

/-- One step of a chain by itself. There is no such step in a stage that concerns others. -/
def advance (p : Program) (c : Chain) : Option (Op Chain) :=
  match c.stage with
  | .walk => some (c.walk p)
  | .follow => some (c.follow p)
  | .call callee receiver args => some do
    return { c with stage := .start 1 (← p.bindValues callee receiver args) }
  | .start depth callee => some (c.start p depth callee)
  | .deliver vs => some (c.deliver p vs)
  | .received purpose v => some (c.received p purpose v)
  | .abandon message => some (throw (.fault (.spawn message)))
  | _ => none

end Chain

end Flowgraph
