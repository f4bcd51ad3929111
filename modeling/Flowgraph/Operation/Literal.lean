import Flowgraph.Operand
import Flowgraph.Store.Zero

/-!
# Composite literals

A literal creates a block or a dictionary of its own. Elements that are not written get zero
values.
-/

namespace Flowgraph

namespace Program

/-- The type of a literal: its own, or that of its first child. -/
def literalType (p : Program) (n : Node) : Except Stop (Option TypeId) := do
  match n.type, n.child? 0 with
  | some t, _ => .ok (some t)
  | none, some c => return (← p.node c).type
  | none, none => .ok none

/-- The descriptor of a literal's type. -/
def literalShape (p : Program) (n : Node) : Except Stop (Option Ty) := do
  match ← p.literalType n with
  | some t => return some (← p.type t)
  | none => return none

/-- The values of the written elements. The first child is the type expression. -/
def elements (p : Program) (f : FrameId) (n : Node) : Look (List Value) :=
  (n.children.drop 1).mapM (p.value f)

/-- Zero values of the types of a list. -/
def zeros (p : Program) (types : List TypeId) : Op (List Value) :=
  types.mapM fun t => p.graph.zero (some t)

/-- A slice of the written elements; an array is filled up to its length. Elements are added one
after the other, and no room for all of them is asked for beforehand. So there is no `checkSize` as
in `Graph.zeroAt`: as long as memory lasts, no length is too large. -/
def arrayLit (p : Program) (f : FrameId) (id : NodeId) : Op Unit := do
  let n ← p.node id
  let written ← p.elements f n
  match ← p.literalShape n with
  | some (.array elem length) =>
    let rest ← Op.times (length - written.length) (p.graph.zero (some elem))
    p.setOwn f id (← Op.newSlice (written ++ rest).toArray)
  | _ => p.setOwn f id (← Op.newSlice written.toArray)

/-- A struct whose first fields are written. -/
def compositeLit (p : Program) (f : FrameId) (id : NodeId) : Op Unit := do
  let n ← p.node id
  let written ← p.elements f n
  match ← p.literalShape n with
  | some (.struct fields) =>
    let rest ← p.zeros ((fields.map Prod.snd).drop written.length)
    p.setOwn f id (← Op.newStruct (written ++ rest).toArray)
  | _ => p.setOwn f id (← Op.newStruct written.toArray)

/-- The key and the value of a pair. -/
def pair (p : Program) (f : FrameId) (id : NodeId) : Look (Value × Value) := do
  let k ← p.operand f id 0
  let v ← p.operand f id 1
  return (k, v)

/-- A map with the written entries; a key that is written again keeps its place. -/
def mapLit (p : Program) (f : FrameId) (id : NodeId) : Op Unit := do
  let pairs ← (((← p.node id).children.drop 1).mapM (p.pair f) : Look _)
  let content := pairs.foldl (fun (d : Dict) (k, v) => d.insert k v) {}
  p.setOwn f id (.map (← Op.create fun s => s.newDict content))

/-- Write one keyed element into the block of a literal. -/
def setKeyed (p : Program) (f : FrameId) (b : BlockId) (id : NodeId) : Op Unit := do
  let n ← p.node id
  match n.field? with
  | none => throw (.malformed id .elementWithoutField)
  | some field =>
    let v ← if n.kind = .keyValue then p.operand f id 1 else p.value f id
    Op.setElement b (saturate field) v

/-- The zero value of a type, with the keyed elements written over it. -/
def keyedLit (p : Program) (f : FrameId) (id : NodeId) : Op Unit := do
  let n ← p.node id
  let v ← p.graph.zero (← p.literalType n)
  let b ← v.asBlock "keyed literal"
  (n.children.drop 1).forM (p.setKeyed f b)
  p.setOwn f id v

/-- A closure over the current frame. -/
def funcLit (p : Program) (f : FrameId) (id : NodeId) : Op Unit := do
  match (← p.node id).payload with
  | some (.func decl) => p.setOwn f id (.func decl (some f))
  | _ => throw (.malformed id .literalWithoutDeclaration)

end Program

end Flowgraph
