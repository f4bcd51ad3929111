import Flowgraph.Store.Dict

/-!
# The shared store

Everything that activations share lives in one store: frames, blocks, dictionaries, channels
and the output. Tables only grow, so a name once given out stays valid and keeps its meaning.

Operations that only look at the store run in `Look`, operations that change it in `Op`. What
an operation changed before it stopped stays changed.
-/

namespace Flowgraph

/-- The slots of one activation, and the frame that lies one level further out. -/
structure Frame where
  slots : Array Value := #[]
  parent : Option FrameId := none
  deriving Repr, Inhabited

/-- A channel buffers at most `capacity` values; with capacity zero a value passes directly
from a sender to a receiver. -/
structure Channel where
  capacity : Nat := 0
  buffer : List Value := []
  closed : Bool := false
  deriving Repr, Inhabited

/-- Where printed lines go: they are kept, or dropped. -/
structure Output where
  kept : Bool := true
  text : String := ""
  deriving Repr, Inhabited

/-- Print one line. -/
def Output.writeLine (o : Output) (line : String) : Output :=
  if o.kept then { o with text := o.text ++ line ++ "\n" } else o

/-- Forget what was printed. -/
def Output.cleared (o : Output) : Output := { o with text := "" }

/-- What activations share. -/
structure Store where
  frames : Array Frame := #[]
  blocks : Array (Array Value) := #[]
  dicts : Array Dict := #[]
  channels : Array Channel := #[]
  output : Output := {}
  deriving Repr, Inhabited

/-- A look at the store, which may stop early. -/
abbrev Look (α : Type) := ReaderT Store (Except Stop) α

/-- An operation on the store, which may stop early. -/
abbrev Op (α : Type) := EStateM Stop Store α

namespace Op

/-- A look at the store is an operation that changes nothing. -/
@[inline] def read {α : Type} (look : Look α) : Op α := fun s =>
  match look s with
  | .ok a => .ok a s
  | .error e => .error e s

@[inline] instance : MonadLift Look Op := ⟨Op.read⟩

/-- Create something in the store. -/
def create {α : Type} (make : Store → α × Store) : Op α := modifyGet make

/-- Perform an operation a number of times, one after the other, and collect the results. It
stops where the operation stops. -/
def times {α : Type} (n : Nat) (x : Op α) : Op (List α) := collect n []
where
  /-- Collect the results behind those that are there already, which are in reverse order. -/
  collect : Nat → List α → Op (List α)
    | 0, results => pure results.reverse
    | n + 1, results => do collect n ((← x) :: results)

/-! ### What operations do to a store -/

variable {α β : Type}

@[simp] theorem pure_apply (a : α) (s : Store) : (pure a : Op α) s = .ok a s := rfl

@[simp] theorem throw_apply (e : Stop) (s : Store) : (throw e : Op α) s = .error e s := rfl

@[simp] theorem get_apply (s : Store) : (get : Op Store) s = .ok s s := rfl

@[simp] theorem modify_apply (change : Store → Store) (s : Store) :
    (modify change : Op Unit) s = .ok () (change s) := rfl

@[simp] theorem create_apply (make : Store → α × Store) (s : Store) :
    (create make : Op α) s = .ok (make s).1 (make s).2 := rfl

theorem bind_apply (x : Op α) (next : α → Op β) (s : Store) :
    (x >>= next) s = match x s with
      | .ok a s' => next a s'
      | .error e s' => .error e s' := by
  simp only [bind, EStateM.bind]
  cases x s <;> rfl

theorem times_collect (n : Nat) (x : Op α) (results : List α) (s : Store) :
    times.collect x n results s = match times n x s with
      | .ok rest s' => .ok (results.reverse ++ rest) s'
      | .error e s' => .error e s' := by
  induction n generalizing results s with
  | zero => simp [times, times.collect]
  | succ n ih =>
    simp only [times, times.collect, bind_apply]
    cases x s with
    | error e s' => rfl
    | ok a s' =>
      simp only [ih]
      cases times n x s' <;> simp

@[simp] theorem times_zero (x : Op α) : times 0 x = pure [] := rfl

/-- One time more is first once, and then the other times. -/
theorem times_succ (n : Nat) (x : Op α) :
    times (n + 1) x = do
      let a ← x
      let rest ← times n x
      return a :: rest := by
  funext s
  rw [times, times.collect, bind_apply, bind_apply]
  cases x s with
  | error e s' => rfl
  | ok a s' =>
    simp only [times_collect, bind_apply]
    cases times n x s' <;> simp

/-- A look hands its result to what follows, in the same store. -/
theorem look_bind_apply (look : Look α) (next : α → Op β) (s : Store) :
    ((liftM look : Op α) >>= next) s = match look s with
      | .ok a => next a s
      | .error e => .error e s := by
  simp only [bind, EStateM.bind, liftM, monadLift, MonadLift.monadLift, read]
  cases look s <;> rfl

/-- A result that needs no store is handed to what follows, in the same store. -/
theorem except_bind_apply (x : Except Stop α) (next : α → Op β) (s : Store) :
    ((liftM x : Op α) >>= next) s = match x with
      | .ok a => next a s
      | .error e => .error e s := by
  cases x <;> rfl

end Op

namespace Store

/-! ### Blocks -/

/-- The elements of a block. -/
def block (s : Store) (b : BlockId) : Array Value := s.blocks[b.index]?.getD #[]

/-- A new block with these elements. -/
def newBlock (s : Store) (elements : Array Value) : BlockId × Store :=
  (⟨s.blocks.size⟩, { s with blocks := s.blocks.push elements })

/-- Overwrite one element of a block; nothing happens beyond its end. -/
def setElement (s : Store) (b : BlockId) (i : Nat) (v : Value) : Store :=
  { s with blocks := s.blocks.modify b.index fun elements => elements.setIfInBounds i v }

/-- What a pointer points at. -/
def target? (s : Store) (b : BlockId) (i : Nat) : Option Value := (s.block b)[i]?

/-! ### Dictionaries -/

/-- The dictionary of that name. -/
def dict (s : Store) (d : DictId) : Dict := s.dicts[d.index]?.getD {}

/-- A new dictionary. -/
def newDict (s : Store) (content : Dict) : DictId × Store :=
  (⟨s.dicts.size⟩, { s with dicts := s.dicts.push content })

/-- Put a value under a key. -/
def insertEntry (s : Store) (d : DictId) (k v : Value) : Store :=
  { s with dicts := s.dicts.modify d.index fun content => content.insert k v }

/-- Remove the entry of a key. -/
def eraseEntry (s : Store) (d : DictId) (k : Value) : Store :=
  { s with dicts := s.dicts.modify d.index fun content => content.erase k }

/-! ### Channels -/

/-- The channel of that name. -/
def channel (s : Store) (c : ChannelId) : Channel := s.channels[c.index]?.getD {}

/-- A new channel. -/
def newChannel (s : Store) (capacity : Nat) : ChannelId × Store :=
  (⟨s.channels.size⟩, { s with channels := s.channels.push { capacity := capacity } })

/-- Change a channel. -/
def updateChannel (s : Store) (c : ChannelId) (f : Channel → Channel) : Store :=
  { s with channels := s.channels.modify c.index f }

/-! ### Output -/

/-- Print one line. -/
def writeLine (s : Store) (line : String) : Store :=
  { s with output := s.output.writeLine line }

end Store

/-! ### Looking at blocks -/

namespace Look

/-- The element that an index denotes. -/
def element (b : BlockId) (index : Int64) : Look Value := fun s => do
  let elements := s.block b
  return elements.getD (← checkIndex index elements.size) .nil

/-- Follow a path of indices into nested composites. -/
def follow (op : String) : Value → List Nat → Look Value
  | v, [] => pure v
  | v, i :: path => do
    let b ← v.asBlock op
    follow op (← element b (saturate i)) path

end Look

/-! ### Operations on blocks and channels -/

namespace Op

/-- Create a slice. -/
def newSlice (elements : Array Value) : Op Value := do
  return .slice (← create fun s => s.newBlock elements)

/-- Create a struct. -/
def newStruct (fields : Array Value) : Op Value := do
  return .struct (← create fun s => s.newBlock fields)

/-- Create a channel, if a buffer of that size is possible. -/
def newChannel (capacity : Nat) : Op ChannelId := do
  checkCapacity capacity
  create fun s => s.newChannel capacity

/-- Overwrite the element that an index denotes. -/
def setElement (b : BlockId) (index : Int64) (v : Value) : Op Unit := do
  let i ← read fun s => checkIndex index (s.block b).size
  modify fun s => s.setElement b i v

/-- Print one line. -/
def writeLine (line : String) : Op Unit := modify fun s => s.writeLine line

end Op

end Flowgraph
