import Flowgraph.Proofs.Close.Deeds

/-!
# Pipes

A pipe is a channel with a chain that sends values on it and closes it, and a chain that ranges over
it. What its parties begin on the channel, and what the rounds of the loop come to, is read off a
run as its history is. `Pipe.Played` says what the parties keep to.
-/

namespace Flowgraph

/-! ### Attempts -/

/-- What a chain begins to do on a channel. -/
inductive Attempt where
  | send (v : Value)
  | receive
  | close

/-- The value that is to be sent. -/
def Attempt.value? : Attempt → Option Value
  | send v => some v
  | _ => none

/-- What is under way on a channel when a chain is in a stage. -/
def Stage.attempt? (ch : ChannelId) : Stage → Option Attempt
  | .send ch' v _ => if ch' = ch then some (.send v) else none
  | .receive ch' _ _ => if ch' = ch then some .receive else none
  | _ => none

namespace Machine

/-- What a chain is about to do on a channel. -/
def current? (m : Machine) (ch : ChannelId) (x : ChainId) : Option Attempt :=
  (m.chain? x).bind fun c => c.stage.attempt? ch

/-- What a chain begins to do on a channel while one machine becomes another. A close is done as
soon as it begins. -/
def attempt? (m m' : Machine) (ch : ChannelId) (x : ChainId) : Option Attempt :=
  match m.deed? m' ch x with
  | some (.closed _) => some .close
  | _ => if (m.current? ch x).isSome then none else m'.current? ch x

/-- What a chain begins to do on a channel by acts, one after the other. -/
def attempts (m : Machine) (ch : ChannelId) (x : ChainId) : List Act → List Attempt
  | [] => []
  | a :: acts => (m.attempt? (m.act a) ch x).toList ++ (m.act a).attempts ch x acts

lemma attempts_append (m : Machine) (ch : ChannelId) (x : ChainId) (acts acts' : List Act) :
    m.attempts ch x (acts ++ acts') =
      m.attempts ch x acts ++ (m.after acts).attempts ch x acts' := by
  induction acts generalizing m with
  | nil => rfl
  | cons a acts ih =>
    rw [List.cons_append, attempts, ih, after_cons, attempts, List.append_assoc]

lemma attempts_concat (m : Machine) (ch : ChannelId) (x : ChainId) (acts : List Act) (a : Act) :
    m.attempts ch x (acts ++ [a]) = m.attempts ch x acts ++
      ((m.after acts).attempt? ((m.after acts).act a) ch x).toList := by
  rw [attempts_append, attempts, attempts, List.append_nil]

end Machine

/-! ### Rounds of a loop -/

/-- A channel, the values that are to be sent on it, the chain that sends them and then closes it,
and the chain that ranges over it: at a node, in a frame, with its state in two slots. -/
structure Pipe where
  channel : ChannelId
  values : List Value
  producer : ChainId
  consumer : ChainId
  frame : FrameId
  node : NodeId
  /-- The slot of the loop's flag; that of its position comes after it. -/
  slot : Nat

/-- What a round of a loop has come to. -/
inductive Round where
  /-- The loop goes on; this is what the first destination is read as. -/
  | visited (v : Except Stop Value)
  | finished

namespace Round

/-- What was visited. -/
def value? : Round → Option (Except Stop Value)
  | visited v => some v
  | finished => none

/-- Whether the loop goes on. -/
def goesOn : Round → Bool
  | visited _ => true
  | finished => false

/-- The round that an answer of the channel makes. -/
def ofAnswer : Option Value → Round
  | some v => visited (.ok v)
  | none => finished

end Round

/-- Whether a node has been performed when a chain goes from one stage to another. -/
def Stage.completes : Stage → Stage → Bool
  | .follow, _ => false
  | _, .follow => true
  | _, _ => false

/-- The frame and the node that a chain is at. -/
def Chain.at? (c : Chain) : Option (FrameId × NodeId) :=
  match c.walks with
  | ⟨a, some id, _⟩ :: _ => some (a.frame, id)
  | _ => none

namespace Machine

/-- The frame and the node that a chain is at. -/
def at? (m : Machine) (x : ChainId) : Option (FrameId × NodeId) := (m.chain? x).bind Chain.at?

/-- What the flag and the first destination of a loop say. -/
def round (m : Machine) (P : Pipe) : Round :=
  match m.store.slot? P.frame P.slot with
  | some (.bool true) => .visited (m.program.operand P.frame P.node 0 m.store)
  | _ => .finished

/-- What a round has come to that comes to its end while one machine becomes another. -/
def round? (m m' : Machine) (P : Pipe) : Option Round := do
  let c ← m.chain? P.consumer
  let c' ← m'.chain? P.consumer
  if c.at? = some (P.frame, P.node) ∧ c.stage.completes c'.stage then some (m'.round P) else none

/-- What rounds come to by acts, one after the other. -/
def rounds (m : Machine) (P : Pipe) : List Act → List Round
  | [] => []
  | a :: acts => (m.round? (m.act a) P).toList ++ (m.act a).rounds P acts

lemma rounds_append (m : Machine) (P : Pipe) (acts acts' : List Act) :
    m.rounds P (acts ++ acts') = m.rounds P acts ++ (m.after acts).rounds P acts' := by
  induction acts generalizing m with
  | nil => rfl
  | cons a acts ih =>
    rw [List.cons_append, rounds, ih, after_cons, rounds, List.append_assoc]

lemma rounds_concat (m : Machine) (P : Pipe) (acts : List Act) (a : Act) :
    m.rounds P (acts ++ [a]) =
      m.rounds P acts ++ ((m.after acts).round? ((m.after acts).act a) P).toList := by
  rw [rounds_append, rounds, rounds, List.append_nil]

end Machine

/-! ### The rules of a pipe -/

/-- A child of a node denotes a slot that is there. -/
def Program.Denotes (p : Program) (s : Store) (f : FrameId) (id : NodeId) (k : Nat)
    (owner : FrameId) (i : Nat) : Prop :=
  ∃ d n, p.child id k = .ok d ∧ p.node d = .ok n ∧ ¬(n.kind = .basicLit ∨ n.kind = .funcDecl) ∧
    n.slot = some i ∧ s.ancestor? f n.level = some owner ∧ i < s.frameSize owner

/-- A child of a node denotes no slot. -/
def Program.Blank (p : Program) (id : NodeId) (k : Nat) : Prop :=
  ∃ d n, p.child id k = .ok d ∧ p.node d = .ok n ∧ n.slot = none

namespace Pipe

/-- The loop has slots for its state, and its first destination is a slot of its own. -/
structure Shaped (P : Pipe) (p : Program) (s : Store) : Prop where
  node : ∃ n, p.node P.node = .ok n ∧ n.kind = .range ∧ n.slot = some P.slot
  room : P.slot + 1 < s.frameSize P.frame
  destinations : ∃ owner i, p.Denotes s P.frame P.node 0 owner i ∧
    (owner = P.frame → i ≠ P.slot ∧ i ≠ P.slot + 1) ∧
    (p.Blank P.node 1 ∨ ∃ owner' i', p.Denotes s P.frame P.node 1 owner' i' ∧
      (owner' = owner → i' ≠ i))

/-- What the parties of a pipe keep to, whatever else is done by acts and in whatever order. -/
structure Played (P : Pipe) (m : Machine) (acts : List Act) : Prop where
  /-- The producer sends the values in their order, and then closes the channel. -/
  producer : m.attempts P.channel P.producer acts <+: P.values.map .send ++ [.close]
  /-- The consumer receives at the loop and nowhere else. -/
  consumer : ∀ before a behind, acts = before ++ a :: behind → ∀ b,
    (m.after before).attempt? ((m.after before).act a) P.channel P.consumer = some b →
      b = .receive ∧ (m.after before).at? P.consumer = some (P.frame, P.node)
  /-- Nobody else uses the channel. -/
  others : ∀ x, x ≠ P.producer → x ≠ P.consumer → m.attempts P.channel x acts = []
  host : ∀ a ∈ acts, a ≠ .close P.channel
  /-- Whenever the consumer is at the loop, the loop is well shaped. -/
  shape : ∀ before behind, acts = before ++ behind →
    (m.after before).at? P.consumer = some (P.frame, P.node) →
      P.Shaped m.program (m.after before).store
  /-- The loop ranges over the channel. -/
  ranges : ∀ before behind, acts = before ++ behind → ∀ c,
    (m.after before).chain? P.consumer = some c → c.at? = some (P.frame, P.node) →
      c.stage = .walk → m.program.operand P.frame P.node 2 (m.after before).store =
        .ok (.chan P.channel)
  /-- Its position is nil or zero when it is entered. -/
  entry : ∀ before behind, acts = before ++ behind → ∀ c,
    (m.after before).chain? P.consumer = some c → c.at? = some (P.frame, P.node) →
      c.stage = .walk → m.rounds P before = [] →
        (m.after before).store.slot? P.frame (P.slot + 1) = some .nil ∨
          (m.after before).store.slot? P.frame (P.slot + 1) = some (.int 0)
  /-- Only the loop changes its state. -/
  state : ∀ before a behind, acts = before ++ a :: behind →
    ¬(a = .move (.run P.consumer) ∧ (m.after before).at? P.consumer = some (P.frame, P.node)) →
      ∀ i, i = P.slot ∨ i = P.slot + 1 →
        ((m.after before).act a).store.slot? P.frame i = (m.after before).store.slot? P.frame i

/-- Before anybody uses the channel. -/
structure Fresh (P : Pipe) (m : Machine) (capacity : Nat) : Prop where
  parties : P.producer ≠ P.consumer
  inside : P.channel.index < m.store.channels.size
  empty : m.store.channel P.channel = { capacity := capacity }
  idle : ∀ x, m.current? P.channel x = none
  /-- If the consumer is at the loop already, it has not begun a round. -/
  outside : ∀ c, m.chain? P.consumer = some c → c.at? = some (P.frame, P.node) → c.stage = .walk

end Pipe

end Flowgraph
