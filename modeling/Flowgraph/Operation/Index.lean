import Flowgraph.Operand
import Flowgraph.Store.Zero
import Flowgraph.Text.Bytes

/-!
# Indexing

Slices and structs are indexed by element, texts by byte, maps by key.
-/

namespace Flowgraph

namespace Look

/-- The element of a composite value, or the byte of a text. -/
def index (collection : Value) (i : Int64) : Look Value :=
  match collection with
  | .str t => do
    let n ← checkIndex i t.utf8ByteSize
    return .ofNat ((Text.byte? t n).getD 0).toNat
  | v => do
    let b ← v.asBlock "index"
    element b i

/-- The value of a map under a key. -/
def entry (m k : Value) : Look (Option Value) := do
  match ← m.asDict "map index" with
  | some d => return ((← read).dict d).get? k
  | none => return none

end Look

namespace Program

/-- The element at an index. -/
def index (p : Program) (f : FrameId) (id : NodeId) : Op Unit := do
  let collection ← p.operand f id 0
  let i ← (← p.operand f id 1).asInt "index"
  p.setOwn f id (← Look.index collection i)

/-- A pointer to the element at an index. -/
def indexAddress (p : Program) (f : FrameId) (id : NodeId) : Op Unit := do
  let collection ← p.operand f id 0
  let i ← (← p.operand f id 1).asInt "address of index"
  let b ← collection.asBlock "address of index"
  let place ← checkIndex i ((← get).block b).size
  p.setOwn f id (.pointer b place)

/-- The element at the end of a path of indices. -/
def indexPath (p : Program) (f : FrameId) (id : NodeId) : Op Unit := do
  let pathNode ← p.child id 1
  match (← p.node pathNode).indices? with
  | none => throw (.malformed pathNode .pathMissing)
  | some path =>
    let root ← p.operand f id 0
    p.setOwn f id (← Look.follow "index sequence" root path)

/-- The value under a key, or the zero value of the node's type. -/
def indexMap (p : Program) (f : FrameId) (id : NodeId) : Op Unit := do
  let m ← p.operand f id 0
  let k ← p.operand f id 1
  match ← Look.entry m k with
  | some v => p.setOwn f id v
  | none => p.setOwn f id (← p.graph.zero (← p.node id).type)

end Program

end Flowgraph
