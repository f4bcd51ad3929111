import Flowgraph.Store.Render

/-!
# Natives

A native is a function of the host. It sees its arguments, the configuration and the store,
and answers with a reply: results, a line to print, an early stop, or a call that takes its
place. It never writes to the store, but for the line.
-/

namespace Flowgraph

/-- What a machine is set up with: its limits, and the system that it asks for threads. -/
structure Config where
  /-- The deepest nesting of calls of declared functions on one chain. -/
  maxCallDepth : Option Nat := none
  /-- The stack size requested for spawned tasks. -/
  taskStackSize : Option Nat := none
  /-- How the system answers the request for a thread with a stack size, which is made once for
  the task of every number: the thread is started, or it is refused with a message. Nothing is
  assumed about this, so a request may be refused at any time and for any reason. -/
  answer? : Option Nat → Nat → Option String := fun _ _ => none
  deriving Inhabited

namespace Config

/-- The message with which the system refuses a thread to the task of a number. -/
def refusal? (config : Config) (number : Nat) : Option String :=
  config.answer? config.taskStackSize number

/-- The system starts every thread that it is asked for. -/
def Grants (config : Config) : Prop := ∀ number, config.refusal? number = none

end Config

/-- What a native answers, which is all that it does: it has results, it prints one line and has
results, it stops, or it has one function called whose results become its own. -/
inductive Reply where
  | results (vs : List Value)
  | print (line : String) (vs : List Value)
  | stop (s : Stop)
  /-- Call a function in the native's place, nested in nothing. -/
  | call (f : Value) (args : List Value)
  deriving Repr, Inhabited

/-- A function of the host. All natives are assumed to be of this kind: they look at the store as it
is when they are called, and do nothing but give one reply. A host could also register a function
that changes blocks or maps, prints several lines, or calls back and then goes on with what it got.
Such functions are not covered. -/
abbrev Native := Config → Store → List Value → Reply

/-- A registered native with the type that it was registered with. -/
structure Symbol where
  run : Native
  type : Option TypeId := none

/-- Natives by name. -/
structure Registry where
  symbols : List (String × Symbol) := []

namespace Registry

/-- No natives. -/
def empty : Registry := {}

/-- The native under a name. -/
def symbol? (r : Registry) (name : String) : Option Symbol :=
  (r.symbols.find? fun e => e.1 == name).map Prod.snd

/-- Whether a name is registered. -/
def contains (r : Registry) (name : String) : Bool := (r.symbol? name).isSome

/-- Register a native under a name. An earlier native of that name is forgotten. -/
def register (r : Registry) (name : String) (run : Native) (type : Option TypeId) : Registry :=
  ⟨(r.symbols.filter fun e => !(e.1 == name)) ++ [(name, ⟨run, type⟩)]⟩

/-- The number of registered names. -/
def size (r : Registry) : Nat := r.symbols.length

/-- The text of a registered native. -/
def describe (name : String) : String := "NativeFunc(" ++ name ++ ")"

end Registry

end Flowgraph
