import Flowgraph.Graph.Kind
import Flowgraph.Graph.Ty

/-!
# Nodes

A node combines three views of the program: its children (the expression tree), its
successors (the control flow) and its location (a slot of the frame that lies `level` frames
out from the one an activation works in).
-/

namespace Flowgraph

/-- A value written in the program text. -/
inductive Literal where
  | nil
  | bool (b : Bool)
  | int (i : Int64)
  | float (x : Float)
  | str (s : String)
  deriving Repr, Inhabited

/-- The layout of a declared function: how large its frame is, where the receiver and the
parameters go, how many leading slots are its results, and where its body starts. -/
structure FuncDef where
  name : String
  frameSize : Nat := 0
  receiver : Option Nat := none
  params : List Nat := []
  results : Nat := 0
  entry : Option NodeId := none
  deriving DecidableEq, Repr, Inhabited

/-- What a node carries beside its children. -/
inductive Payload where
  | literal (l : Literal)
  | func (decl : NodeId)
  | native (name : String)
  | indices (path : List Nat)
  | field (index : Nat)
  | definition (d : FuncDef)
  | fork
  deriving Repr, Inhabited

/-- A node of a program graph. -/
structure Node where
  kind : Kind
  children : List NodeId := []
  parent : Option NodeId := none
  type : Option TypeId := none
  slot : Option Nat := none
  level : Nat := 0
  width : Nat := 1
  /-- Where a walk goes on, or goes on when the node's own value is true. -/
  next : Option NodeId := none
  /-- Where a walk goes on when the node's own value is false. -/
  otherwise : Option NodeId := none
  payload : Option Payload := none
  deriving Repr, Inhabited

namespace Node

/-- The `i`-th child. -/
def child? (n : Node) (i : Nat) : Option NodeId := n.children[i]?

/-- The declaration that the node carries. -/
def definition? (n : Node) : Option FuncDef :=
  match n.payload with
  | some (.definition d) => some d
  | _ => none

/-- The index path that the node carries. -/
def indices? (n : Node) : Option (List Nat) :=
  match n.payload with
  | some (.indices path) => some path
  | _ => none

/-- The field number that the node carries. -/
def field? (n : Node) : Option Nat :=
  match n.payload with
  | some (.field i) => some i
  | _ => none

/-- A forking call links the callee's frame to the caller's. -/
def isFork (n : Node) : Bool :=
  match n.payload with
  | some .fork => true
  | _ => false

end Node

end Flowgraph
