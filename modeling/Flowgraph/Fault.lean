import Flowgraph.Graph.Basic

/-!
# Faults

A fault ends the chain of activations that raised it. Every fault is a cause; its wording is
given once, by `Fault.message`. A reference beyond the tables of the graph, or a native that
fails outright, stops a chain without a fault: such a stop is a panic. An operation on a type
that contains itself by value does not come to an end at all.
-/

namespace Flowgraph

/-- What an operation misses at a node of a graph that was not built as it expects. -/
inductive Defect where
  | missingOperand
  | levelTooDeep
  | slotBeyondFrame
  | resultSlotsBeyondFrame
  | noResultSlot
  | noDeclaration
  | argumentCount
  | parameterBeyondFrame
  | tooManyResults
  | unevenAssignment
  | spreadWithoutSource
  | sourceWithoutSlot
  | pointerPastEnd
  | elementWithoutField
  | pathMissing
  | makeWithoutType
  | rangeWithoutSlot
  | rangePositionBeyondFrame
  | caseOutsideSwitch
  | literalWithoutDeclaration
  deriving DecidableEq, Repr

/-- The wording of a defect. -/
def Defect.message : Defect → String
  | missingOperand => "missing operand"
  | levelTooDeep => "lexical level deeper than frame chain"
  | slotBeyondFrame => "slot index beyond frame size"
  | resultSlotsBeyondFrame => "result slots beyond frame size"
  | noResultSlot => "operation without result slot"
  | noDeclaration => "function value without declaration layout"
  | argumentCount => "argument count does not match parameters"
  | parameterBeyondFrame => "parameter slot beyond frame size"
  | tooManyResults => "more results than frame slots"
  | unevenAssignment => "assignment needs matching destinations and sources"
  | spreadWithoutSource => "spread assignment without source"
  | sourceWithoutSlot => "multi-result source without slot"
  | pointerPastEnd => "pointer past end of backing array"
  | elementWithoutField => "keyed element without field index"
  | pathMissing => "index sequence missing"
  | makeWithoutType => "make without type"
  | rangeWithoutSlot => "range without result slot"
  | rangePositionBeyondFrame => "range position slot beyond frame size"
  | caseOutsideSwitch => "case outside of a switch"
  | literalWithoutDeclaration => "function literal without declaration"

/-- Why a chain of activations was aborted. -/
inductive Fault where
  | typeMismatch (op expected found : String)
  | indexOutOfRange (index : Int) (length : Nat)
  | divisionByZero
  | nilMap
  | nilChannel (op : String)
  | sendOnClosed
  | closeOfClosed
  | nilDereference (op : String)
  | stackOverflow (limit : Nat)
  | malformed (node : NodeId) (defect : Defect)
  | unknownNative (name : String)
  | unknownFunction (name : String)
  | native (name message : String)
  | spawn (message : String)
  | panicked (message : String)
  deriving DecidableEq, Repr

/-- The wording of a fault. -/
def Fault.message : Fault → String
  | typeMismatch op expected found =>
    "type mismatch in " ++ op ++ ": expected " ++ expected ++ ", found " ++ found
  | indexOutOfRange index length =>
    "index out of range [" ++ toString index ++ "] with length " ++ Nat.repr length
  | divisionByZero => "integer divide by zero"
  | nilMap => "assignment to entry in nil map"
  | nilChannel op => op ++ " on nil channel"
  | sendOnClosed => "send on closed channel"
  | closeOfClosed => "close of closed channel"
  | nilDereference op => "nil pointer dereference in " ++ op
  | stackOverflow limit => "call depth limit of " ++ Nat.repr limit ++ " exceeded"
  | malformed node defect =>
    "malformed graph at node " ++ node.label ++ ": " ++ defect.message
  | unknownNative name => "unknown native symbol `" ++ name ++ "`"
  | unknownFunction name => "no function named `" ++ name ++ "`"
  | native name message => name ++ ": " ++ message
  | spawn message => "failed to start activation thread: " ++ message
  | panicked message => "activation panicked: " ++ message

/-- How an operation fails to complete: with a fault, with a panic, whose text may be missing,
or by never coming to its end. -/
inductive Stop where
  | fault (f : Fault)
  | panic (text : Option String)
  | endless
  deriving DecidableEq, Repr

namespace Stop

/-- A node is not as an operation expects it. -/
def malformed (node : NodeId) (defect : Defect) : Stop := .fault (.malformed node defect)

/-- A reference leads beyond a table of the graph. -/
def ofOutOfTable (e : OutOfTable) : Stop := .panic (some e.message)

/-- More was asked for than any memory can hold. -/
def tooLarge : Stop := .panic (some "capacity overflow")

/-- A channel should buffer more values than can be numbered. -/
def capacityTooLarge : Stop := .panic (some "bounded channel capacity is too large")

/-- The fault that is recorded for a task that stopped, if it stopped at all. -/
def recorded? : Stop → Option Fault
  | fault f => some f
  | panic text => some (.panicked (text.getD "non-string panic payload"))
  | endless => none

end Stop

/-- Let a result stand, or stop where a table was left. -/
def Graph.orStop {α : Type} : Except OutOfTable α → Except Stop α
  | .ok a => .ok a
  | .error e => .error (.ofOutOfTable e)

end Flowgraph
