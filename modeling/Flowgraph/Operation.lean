import Flowgraph.Operation.Arith
import Flowgraph.Operation.Assign
import Flowgraph.Operation.Builtin
import Flowgraph.Operation.Call
import Flowgraph.Operation.Control
import Flowgraph.Operation.Index
import Flowgraph.Operation.Literal
import Flowgraph.Operation.Range

/-!
# Operations

Every kind of node has one operation, which is performed in a frame. Structural kinds have
nothing to do.
-/

namespace Flowgraph

namespace Program

/-- An operation that leaves nothing to be done. -/
def completely (op : Op Unit) : Op Pending := do
  op
  return .done

/-- The operation of a kind, at a node and in a frame. -/
def operation (p : Program) (f : FrameId) (id : NodeId) : Kind → Op Pending
  | .basicLit | .ident | .funcDecl | .funcType | .fieldList | .block | .selector | .keyValue
  | .typeExpr | .switch | .caseClause | .indexExpr | .nop => pure .done
  | .binary op => completely (p.binary f id op)
  | .neg => completely (p.unary f id Value.negate)
  | .inc => completely (p.unary f id Value.increment)
  | .dec => completely (p.unary f id Value.decrement)
  | .not => completely (p.lnot f id)
  | .land => completely (p.land f id)
  | .lor => completely (p.lor f id)
  | .assign => completely (p.assign f id)
  | .assignSpread => completely (p.assignSpread f id)
  | .assignZero => completely (p.assignZero f id)
  | .assignPointer => completely (p.assignPointer f id)
  | .assignMap => completely (p.assignMap f id)
  | .arrayLit => completely (p.arrayLit f id)
  | .mapLit => completely (p.mapLit f id)
  | .compositeLit => completely (p.compositeLit f id)
  | .keyedLit => completely (p.keyedLit f id)
  | .index => completely (p.index f id)
  | .indexAddress => completely (p.indexAddress f id)
  | .indexPath => completely (p.indexPath f id)
  | .indexMap => completely (p.indexMap f id)
  | .make => completely (p.make f id)
  | .receive => p.receive f id
  | .send => p.send f id
  | .close => completely (p.close f id)
  | .len => completely (p.len f id)
  | .sleep => p.sleep f id
  | .println => completely (p.println f id)
  | .range => p.range f id
  | .ret => completely (p.ret f id)
  | .caseTest => completely (p.caseTest f id)
  | .call => do return .call (← p.bindCall f id "call")
  | .spawn => do return .spawn (← p.bindCall f id "go")
  | .funcLit => completely (p.funcLit f id)

/-- Perform the operation of a node in a frame. -/
def perform (p : Program) (f : FrameId) (id : NodeId) : Op Pending := do
  p.operation f id (← p.node id).kind

end Program

end Flowgraph
