import Flowgraph.Machine.Exchange
import Flowgraph.Machine.Task

/-!
# Moves

A machine goes on by moves: a chain makes its next step, a chain sees that its channel was
closed, or time passes. Which moves are made in which order is not decided here.
-/

namespace Flowgraph

/-- What can happen next. -/
inductive Move where
  /-- A chain makes its next step. -/
  | run (c : ChainId)
  /-- A chain that has an offer sees that its channel was closed. -/
  | seeClosed (c : ChainId)
  /-- A number of microseconds passes. -/
  | pass (microseconds : Nat)
  deriving DecidableEq, Repr

namespace Machine

/-- Let a chain wake up if its time has come. -/
def wake (m : Machine) (id : ChainId) (c : Chain) (time : Nat) : Machine :=
  if time ≤ m.clock then m.setChain id c.proceed else m

/-- Let a chain make its next step. A chain that has to wait stays as it is. -/
def run (m : Machine) (id : ChainId) : Machine :=
  match m.chain? id with
  | none => m
  | some c =>
    match c.stage with
    | .send ch v phase => m.send id c ch v phase
    | .receive ch purpose phase => m.receive id c ch purpose phase
    | .pause milliseconds =>
      m.setChain id { c with stage := .sleep (m.clock + 1000 * milliseconds) }
    | .sleep time => m.wake id c time
    | .spawn callee => m.reserve id c callee
    | .launch task callee => m.launch id c task callee
    | .withdraw message => m.withdraw id c message
    | .enlist child => m.enlist id c child
    | .join chains => m.join id c chains
    | .exit outcome => (m.record c outcome).setChain id { c with stage := .leave outcome }
    | .leave outcome => (m.retire c).setChain id { c with stage := .ended outcome }
    | .ended _ | .lost => m
    | _ =>
      match c.advance m.program with
      | some step => m.stepChain id c step
      | none => m

/-- Make a move. A move that is not possible changes nothing. -/
def step (m : Machine) : Move → Machine
  | .run c => m.run c
  | .seeClosed c => m.seeClosed c
  | .pass microseconds => { m with clock := m.clock + microseconds }

/-- One machine can become the other by some moves. -/
inductive Reaches : Machine → Machine → Prop where
  | refl (m : Machine) : Reaches m m
  | step (m : Machine) (move : Move) {m' : Machine} : Reaches (m.step move) m' → Reaches m m'

end Machine

end Flowgraph
