import Flowgraph.Store.Basic

/-!
# Zero values

The zero value of a type follows its descriptor: an array has one zero value per element and
a struct one per field, each in a block of its own; every handle type has nil. A descriptor
that contains itself by value has no zero value.
-/

namespace Flowgraph

namespace Graph

/-- The zero value of a type, for descriptors nested less than `depth` deep. -/
def zeroAt (g : Graph) : Nat → TypeId → Op Value
  | 0, _ => throw .endless
  | depth + 1, t => do
    match ← Graph.orStop (g.type t) with
    | .bool => pure (.bool false)
    | .int => pure (.int 0)
    | .float => pure (.float 0.0)
    | .string => pure (.str "")
    | .array elem length => do
      checkSize length maxValues
      let elements ← Op.times length (g.zeroAt depth elem)
      Op.newSlice elements.toArray
    | .struct fields => do
      let elements ← (fields.map Prod.snd).mapM (g.zeroAt depth)
      Op.newStruct elements.toArray
    | .slice _ | .map _ _ | .chan _ | .pointer _ | .func | .any => pure .nil

/-- The zero value of a type; without a type it is nil. A descriptor that is not nested in
itself is nested at most as deep as there are types. -/
def zero (g : Graph) : Option TypeId → Op Value
  | none => pure .nil
  | some t => g.zeroAt (g.types.size + 1) t

end Graph

end Flowgraph
