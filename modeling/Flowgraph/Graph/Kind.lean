/-!
# Node kinds

Every node of a program graph has a kind. Some kinds only give the graph its shape; every
other kind names the operation that a walk performs when it reaches the node. The binary
operators share one constructor, so that what they have in common is said once.
-/

namespace Flowgraph

/-- A binary operator: both operands are read, and the result goes to the node's own slot. -/
inductive BinaryOp where
  | add | sub | mul | quo | rem
  | equal | notEqual | greater | greaterEqual | lower | lowerEqual
  | and | or
  deriving DecidableEq, Repr, Inhabited

/-- What a node is: a piece of structure, or an operation. -/
inductive Kind where
  | basicLit | ident | funcDecl | funcType | fieldList | block | selector | keyValue
  | typeExpr | switch | caseClause | indexExpr
  | nop
  | binary (op : BinaryOp)
  | neg | not | land | lor | inc | dec
  | assign | assignSpread | assignZero | assignPointer | assignMap
  | arrayLit | mapLit | compositeLit | keyedLit
  | index | indexAddress | indexPath | indexMap
  | make | receive | send | close | len | sleep | println
  | range | ret | caseTest | call | spawn | funcLit
  deriving DecidableEq, Repr, Inhabited

namespace BinaryOp

/-- The name under which a node with this operator is listed. -/
def name : BinaryOp → String
  | add => "Add" | sub => "Sub" | mul => "Mul" | quo => "Quo" | rem => "Rem"
  | equal => "Equal" | notEqual => "NotEqual"
  | greater => "Greater" | greaterEqual => "GreaterEqual"
  | lower => "Lower" | lowerEqual => "LowerEqual"
  | and => "And" | or => "Or"

/-- The operator's sign, as faults quote it. -/
def sign : BinaryOp → String
  | add => "+" | sub => "-" | mul => "*" | quo => "/" | rem => "%"
  | equal => "==" | notEqual => "!="
  | greater => ">" | greaterEqual => ">=" | lower => "<" | lowerEqual => "<="
  | and => "&" | or => "|"

end BinaryOp

namespace Kind

/-- Every kind, in the order of their listing. -/
def all : List Kind :=
  [basicLit, ident, funcDecl, funcType, fieldList, block, selector, keyValue, typeExpr, switch,
    caseClause, indexExpr, nop, binary .add, binary .sub, binary .mul, binary .quo, binary .rem,
    neg, binary .equal, binary .notEqual, binary .greater, binary .greaterEqual, binary .lower,
    binary .lowerEqual, binary .and, binary .or, not, land, lor, inc, dec, assign, assignSpread,
    assignZero, assignPointer, assignMap, arrayLit, mapLit, compositeLit, keyedLit, index,
    indexAddress, indexPath, indexMap, make, receive, send, close, len, sleep, println, range,
    ret, caseTest, call, spawn, funcLit]

/-- The name under which a kind is listed. -/
def name : Kind → String
  | basicLit => "BasicLit" | ident => "Ident" | funcDecl => "FuncDecl" | funcType => "FuncType"
  | fieldList => "FieldList" | block => "Block" | selector => "Selector"
  | keyValue => "KeyValue" | typeExpr => "TypeExpr" | switch => "Switch"
  | caseClause => "CaseClause" | indexExpr => "IndexExpr" | nop => "Nop"
  | binary op => op.name
  | neg => "Neg" | not => "Not" | land => "Land" | lor => "Lor" | inc => "Inc" | dec => "Dec"
  | assign => "Assign" | assignSpread => "AssignX" | assignZero => "Assign0"
  | assignPointer => "AssignPtr" | assignMap => "AssignMap"
  | arrayLit => "ArrayLit" | mapLit => "MapLit" | compositeLit => "CompositeLit"
  | keyedLit => "CompositeSparse"
  | index => "GetIndex" | indexAddress => "GetIndexAddr" | indexPath => "GetIndexSeq"
  | indexMap => "GetIndexMap"
  | make => "Make" | receive => "Recv" | send => "Send" | close => "Close" | len => "Len"
  | sleep => "Sleep" | println => "Println" | range => "Range" | ret => "Return"
  | caseTest => "Case" | call => "Call" | spawn => "GoCall" | funcLit => "FuncLit"

/-- The kind listed under a name. -/
def ofName? (s : String) : Option Kind :=
  all.find? (fun k => k.name == s)

/-- Structural kinds give the graph its shape and compute nothing. -/
def isStructural : Kind → Bool
  | basicLit | ident | funcDecl | funcType | fieldList | block | selector | keyValue
  | typeExpr | switch | caseClause | indexExpr => true
  | _ => false

/-- Kinds whose operation may have to wait for other activations or for time to pass. -/
def mayBlock : Kind → Bool
  | receive | send | sleep | range => true
  | _ => false

/-- The operation that stands behind the name of a builtin function. -/
def ofBuiltin? : String → Option Kind
  | "make" => some make
  | "println" => some println
  | "sleep" => some sleep
  | "len" => some len
  | "close" => some close
  | _ => none

end Kind

end Flowgraph
