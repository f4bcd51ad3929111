import Flowgraph.Fault

/-!
# Values

A value is a scalar or a handle. Composite values, dictionaries and channels live in the
shared store; a value only names them, so that copies of a value share what they name. A
closure names the frame it was created in.
-/

namespace Flowgraph

/-- A frame of the store. -/
structure FrameId where
  index : Nat
  deriving DecidableEq, Repr, Inhabited

/-- A block of the store: the elements of an array or slice, or the fields of a struct. -/
structure BlockId where
  index : Nat
  deriving DecidableEq, Repr, Inhabited

/-- A dictionary of the store. -/
structure DictId where
  index : Nat
  deriving DecidableEq, Repr, Inhabited

/-- A channel of the store. -/
structure ChannelId where
  index : Nat
  deriving DecidableEq, Repr, Inhabited

/-- What a slot, an element or a dictionary entry holds. -/
inductive Value where
  | nil
  | bool (b : Bool)
  | int (i : Int64)
  | float (x : Float)
  | str (s : String)
  | slice (block : BlockId)
  | struct (block : BlockId)
  | pointer (block : BlockId) (index : Nat)
  | map (dict : DictId)
  | chan (channel : ChannelId)
  /-- A declared function; a closure also has the frame that it was created in. -/
  | func (decl : NodeId) (env : Option FrameId)
  /-- A function of the host, by its registered name. -/
  | native (name : String)
  deriving Repr, Inhabited

/-- A count as an integer. Counts beyond the largest integer are held at that integer. -/
def saturate (n : Nat) : Int64 := Int64.ofNat (min n (Nat.pow 2 63 - 1))

namespace Value

/-- The value that a literal stands for. -/
def ofLiteral : Literal → Value
  | .nil => nil
  | .bool b => bool b
  | .int i => int i
  | .float x => float x
  | .str s => str s

/-- A length or count as a value. -/
def ofNat (n : Nat) : Value := int (saturate n)

/-- The family of a value, as faults quote it. -/
def typeName : Value → String
  | nil => "nil" | bool _ => "bool" | int _ => "int" | float _ => "float" | str _ => "string"
  | slice _ => "slice" | struct _ => "struct" | pointer _ _ => "pointer" | map _ => "map"
  | chan _ => "chan" | func _ _ => "func" | native _ => "native func"

/-- Whether a value is nil. -/
def isNil : Value → Bool
  | nil => true
  | _ => false

/-! ### Reading a value as one of a family

Each reader takes the name of the operation that asks, which the fault quotes. -/

/-- The fault of an operation that met a value of the wrong family. -/
def mismatch (op expected : String) (v : Value) : Stop :=
  .fault (.typeMismatch op expected v.typeName)

/-- The truth value. -/
def asBool (op : String) : Value → Except Stop Bool
  | bool b => .ok b
  | v => .error (v.mismatch op "bool")

/-- The integer. -/
def asInt (op : String) : Value → Except Stop Int64
  | int i => .ok i
  | v => .error (v.mismatch op "int")

/-- The block that holds the elements or fields. -/
def asBlock (op : String) : Value → Except Stop BlockId
  | slice b => .ok b
  | struct b => .ok b
  | nil => .error (.fault (.nilDereference op))
  | v => .error (v.mismatch op "slice or struct")

/-- The dictionary; a nil map has none. -/
def asDict (op : String) : Value → Except Stop (Option DictId)
  | map d => .ok (some d)
  | nil => .ok none
  | v => .error (v.mismatch op "map")

/-- The channel. -/
def asChannel (op : String) : Value → Except Stop ChannelId
  | chan c => .ok c
  | nil => .error (.fault (.nilChannel op))
  | v => .error (v.mismatch op "chan")

end Value

/-- The place that an index denotes among `length` elements. -/
def checkIndex (index : Int64) (length : Nat) : Except Stop Nat :=
  if 0 ≤ index.toInt ∧ index.toInt < length then .ok index.toInt.toNat
  else .error (.fault (.indexOutOfRange index.toInt length))

/-! ### Sizes

Memory is addressed by integers, which limits how much can be held in one piece. -/

/-- The largest size of a piece of memory, in bytes. -/
def largestPiece : Nat := Nat.pow 2 63 - 8

/-- The largest number of values in one frame or block; each takes 32 bytes. -/
def maxValues : Nat := largestPiece / 32

/-- The largest number of values that a channel can buffer; each takes 40 bytes. -/
def maxBuffered : Nat := largestPiece / 40

/-- The largest capacity of a channel whose places can be numbered. Two rounds through the buffer
are told apart, a round takes a power of two that is above the capacity, and both rounds together
fit into 64 bits only up to here. -/
def maxCapacity : Nat := Nat.pow 2 62 - 1

/-- Go on only if a size is possible at all. -/
def checkSize (size limit : Nat) : Except Stop Unit :=
  if size ≤ limit then .ok () else .error .tooLarge

/-- Go on only if a channel of that capacity is possible at all. Its places are numbered before
memory is asked for. -/
def checkCapacity (capacity : Nat) : Except Stop Unit :=
  if capacity ≤ maxCapacity then checkSize capacity maxBuffered else .error .capacityTooLarge

end Flowgraph
