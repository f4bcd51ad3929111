/-!
# Identifiers and type descriptors

Nodes and types of a graph are named by their position in the graph's tables. A type
descriptor refers to its component types by such a name, so descriptors may be recursive and
may refer to entries that come later in the table.
-/

namespace Flowgraph

/-- The position of a node in its graph. -/
structure NodeId where
  index : Nat
  deriving DecidableEq, Repr, Inhabited, Hashable

/-- The position of a type descriptor in its graph. -/
structure TypeId where
  index : Nat
  deriving DecidableEq, Repr, Inhabited, Hashable

/-- The short form of a node's name, as faults quote it. -/
def NodeId.label (n : NodeId) : String := "#" ++ Nat.repr n.index

/-- The long form of a node's name. -/
def NodeId.describe (n : NodeId) : String := "NodeId(" ++ Nat.repr n.index ++ ")"

/-- The long form of a type's name. -/
def TypeId.describe (t : TypeId) : String := "TypeId(" ++ Nat.repr t.index ++ ")"

/-- A type descriptor. -/
inductive Ty where
  | bool | int | float | string
  | slice (elem : TypeId)
  | array (elem : TypeId) (length : Nat)
  | map (key value : TypeId)
  | chan (elem : TypeId)
  | struct (fields : List (String × TypeId))
  | pointer (elem : TypeId)
  | func
  | any
  deriving DecidableEq, Repr, Inhabited

/-- The family of a type, as faults quote it. -/
def Ty.category : Ty → String
  | bool => "bool" | int => "int" | float => "float" | string => "string"
  | slice _ => "slice" | array _ _ => "array" | map _ _ => "map" | chan _ => "chan"
  | struct _ => "struct" | pointer _ => "pointer" | func => "func" | any => "interface"

/-- The types whose zero value holds a zero value of this one, by value. -/
def Ty.parts : Ty → List TypeId
  | array elem _ => [elem]
  | struct fields => fields.map Prod.snd
  | _ => []

end Flowgraph
