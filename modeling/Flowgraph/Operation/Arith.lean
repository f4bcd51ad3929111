import Flowgraph.Operand
import Flowgraph.Text.Bytes

/-!
# Arithmetic, comparison and logic

Integers are 64 bits wide and wrap around; division truncates toward zero. Floats follow the
usual rules, under which a comparison with something that is not a number is false. Texts can
be joined and are ordered by their bytes. Equality is defined on all values and never fails.
-/

namespace Flowgraph

namespace BinaryOp

/-- What a comparison says of an ordering of its operands. Other operators are no
comparisons. -/
def accepts : BinaryOp → Ordering → Option Bool
  | equal, o => some (o == .eq)
  | notEqual, o => some (o != .eq)
  | greater, o => some (o == .gt)
  | greaterEqual, o => some (o != .lt)
  | lower, o => some (o == .lt)
  | lowerEqual, o => some (o != .gt)
  | _, _ => none

/-- The stop of an operator that met operands of a family it does not know. -/
def mismatch (op : BinaryOp) (expected found : String) : Stop :=
  .fault (.typeMismatch op.sign expected found)

/-- The outcome of a comparison. -/
def compared (op : BinaryOp) (o : Ordering) : Except Stop Value :=
  match op.accepts o with
  | some b => .ok (.bool b)
  | none => .error (op.mismatch "comparison" "arithmetic")

/-- An operator on integers. -/
def onInts (op : BinaryOp) (a b : Int64) : Except Stop Value :=
  match op with
  | add => .ok (.int (a + b))
  | sub => .ok (.int (a - b))
  | mul => .ok (.int (a * b))
  | quo => if b = 0 then .error (.fault .divisionByZero) else .ok (.int (a / b))
  | rem => if b = 0 then .error (.fault .divisionByZero) else .ok (.int (a % b))
  | and => .ok (.int (a &&& b))
  | or => .ok (.int (a ||| b))
  | _ => op.compared (compareOfLessAndEq a b)

/-- The ordering of two floats, if they have one. -/
def orderFloats (a b : Float) : Option Ordering :=
  if a < b then some .lt else if a == b then some .eq else if b < a then some .gt else none

/-- An operator on floats. -/
def onFloats (op : BinaryOp) (a b : Float) : Except Stop Value :=
  match op with
  | add => .ok (.float (a + b))
  | sub => .ok (.float (a - b))
  | mul => .ok (.float (a * b))
  | quo => .ok (.float (a / b))
  | rem | and | or => .error (op.mismatch "int" "float")
  | _ =>
    match orderFloats a b with
    | some o => op.compared o
    | none => .ok (.bool false)

/-- An operator on texts. -/
def onTexts (op : BinaryOp) (a b : String) : Except Stop Value :=
  match op with
  | add => .ok (.str (a ++ b))
  | sub | mul | quo | rem | and | or => .error (op.mismatch "int or float" "string")
  | _ => op.compared (Text.order a b)

/-- An operator on any two values. -/
def evaluate (op : BinaryOp) (left right : Value) : Except Stop Value :=
  match op with
  | equal => .ok (.bool (left == right))
  | notEqual => .ok (.bool (!(left == right)))
  | _ =>
    match left, right with
    | .int a, .int b => op.onInts a b
    | .float a, .float b => op.onFloats a b
    | .str a, .str b => op.onTexts a b
    | .int _, _ | .float _, _ | .str _, _ =>
      .error (op.mismatch left.typeName right.typeName)
    | _, _ => .error (op.mismatch "int, float or string" left.typeName)

end BinaryOp

namespace Value

/-- The negated number. -/
def negate : Value → Except Stop Value
  | int a => .ok (int (-a))
  | float x => .ok (float (-x))
  | v => .error (v.mismatch "unary -" "int or float")

/-- The next number. -/
def increment : Value → Except Stop Value
  | int a => .ok (int (a + 1))
  | float x => .ok (float (x + 1.0))
  | v => .error (v.mismatch "++/--" "int or float")

/-- The number before. -/
def decrement : Value → Except Stop Value
  | int a => .ok (int (a - 1))
  | float x => .ok (float (x - 1.0))
  | v => .error (v.mismatch "++/--" "int or float")

end Value

namespace Program

/-- Both operands are read before the operator is applied. -/
def binary (p : Program) (f : FrameId) (id : NodeId) (op : BinaryOp) : Op Unit := do
  let left ← p.operand f id 0
  let right ← p.operand f id 1
  p.setOwn f id (← op.evaluate left right)

/-- Apply a function to the only operand. -/
def unary (p : Program) (f : FrameId) (id : NodeId) (apply : Value → Except Stop Value) :
    Op Unit := do
  p.setOwn f id (← apply (← p.operand f id 0))

/-- Logical negation. -/
def lnot (p : Program) (f : FrameId) (id : NodeId) : Op Unit := do
  p.setOwn f id (.bool !(← (← p.operand f id 0).asBool "!"))

/-- Logical conjunction: the second operand is read only when the first is true. -/
def land (p : Program) (f : FrameId) (id : NodeId) : Op Unit := do
  if ← (← p.operand f id 0).asBool "&&" then
    p.setOwn f id (.bool (← (← p.operand f id 1).asBool "&&"))
  else
    p.setOwn f id (.bool false)

/-- Logical disjunction: the second operand is read only when the first is false. -/
def lor (p : Program) (f : FrameId) (id : NodeId) : Op Unit := do
  if ← (← p.operand f id 0).asBool "||" then
    p.setOwn f id (.bool true)
  else
    p.setOwn f id (.bool (← (← p.operand f id 1).asBool "||"))

end Program

end Flowgraph
