import Flowgraph.Value.Basic

/-!
# What an operation leaves to be done

Most operations are done at once. Some hand over to the machine: a call starts another
activation, and channel operations and sleeping may have to wait.
-/

namespace Flowgraph

/-- A declared function whose frame is ready: the receiver and the arguments are in their
slots. -/
structure Activation where
  frame : FrameId
  decl : NodeId
  entry : Option NodeId
  /-- How many leading slots of the frame are the results. -/
  results : Nat
  deriving DecidableEq, Repr, Inhabited

/-- A function together with everything that its start needs. -/
inductive Callee where
  | declared (a : Activation)
  | native (name : String) (args : List Value)
  deriving Repr, Inhabited

/-- What a value is received for. -/
inductive Purpose where
  /-- It becomes the result of the receiving node, or of the host's step. -/
  | result
  /-- It is visited by a loop, whose position becomes `next`. -/
  | visit (next : Value)
  deriving Repr, Inhabited

/-- What an operation leaves to be done. -/
inductive Pending where
  | done
  | send (c : ChannelId) (v : Value)
  | receive (c : ChannelId) (purpose : Purpose)
  | sleep (milliseconds : Nat)
  | call (callee : Callee)
  | spawn (callee : Callee)
  deriving Repr, Inhabited

end Flowgraph
