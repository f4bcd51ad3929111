import Flowgraph.Machine.Basic

/-!
# Exchange over channels

A value goes from a sending chain into the buffer of a channel, and from there to a receiving
chain. A channel without a buffer passes it in one step, from one chain to the other.

A chain that cannot go on parks and waits. Whoever takes a value from a full buffer calls the
sender that has waited longest, and whoever puts a value into an empty one calls the receiver
that has waited longest; a chain that was called tries again. Closing a channel ends the waiting
of all who are parked on it, so from then on nobody is found waiting there.
-/

namespace Flowgraph

/-- Whether a value can be buffered. -/
def Channel.hasRoom (ch : Channel) : Bool := ch.buffer.length < ch.capacity

namespace Store

/-- Buffer a value behind all others. -/
def pushValue (s : Store) (ch : ChannelId) (v : Value) : Store :=
  s.updateChannel ch fun channel => { channel with buffer := channel.buffer ++ [v] }

/-- Forget the value that was buffered first. -/
def popValue (s : Store) (ch : ChannelId) : Store :=
  s.updateChannel ch fun channel => { channel with buffer := channel.buffer.tail }

end Store

namespace Chain

/-- The value that a chain waits to send on a channel. -/
def offered? (ch : ChannelId) (c : Chain) : Option Value :=
  match c.stage with
  | .send ch' v .parked => if ch' = ch then some v else none
  | _ => none

/-- What a chain waits for a value of a channel for. -/
def wanted? (ch : ChannelId) (c : Chain) : Option Purpose :=
  match c.stage with
  | .receive ch' purpose .parked => if ch' = ch then some purpose else none
  | _ => none

end Chain

namespace Machine

/-! ### Waiting -/

/-- Let a chain wait behind all others. -/
def park (m : Machine) (id : ChainId) (c : Chain) : Machine :=
  { m with waiting := m.waiting ++ [id] }.setChain id c

/-- Let a chain no longer wait. -/
def rouse (m : Machine) (id : ChainId) (c : Chain) : Machine :=
  { m with waiting := m.waiting.erase id }.setChain id c

/-- Of the chains that wait at an open channel, the first one that a test accepts. -/
def firstWaiting? {α : Type} (m : Machine) (ch : ChannelId) (test : Chain → Option α) :
    Option (ChainId × Chain × α) :=
  if (m.store.channel ch).closed then none
  else m.waiting.findSome? fun id => do
    let c ← m.chain? id
    let a ← test c
    return (id, c, a)

/-- The sender that has waited longest at a channel. -/
def waitingSender? (m : Machine) (ch : ChannelId) : Option (ChainId × Chain × Value) :=
  m.firstWaiting? ch (Chain.offered? ch)

/-- The receiver that has waited longest at a channel. -/
def waitingReceiver? (m : Machine) (ch : ChannelId) : Option (ChainId × Chain × Purpose) :=
  m.firstWaiting? ch (Chain.wanted? ch)

/-- Let the sender that has waited longest try again. -/
def callSender (m : Machine) (ch : ChannelId) : Machine :=
  match m.waitingSender? ch with
  | some (id, c, v) => m.rouse id { c with stage := .send ch v .offer }
  | none => m

/-- Let the receiver that has waited longest try again. -/
def callReceiver (m : Machine) (ch : ChannelId) : Machine :=
  match m.waitingReceiver? ch with
  | some (id, c, purpose) => m.rouse id { c with stage := .receive ch purpose .offer }
  | none => m

/-! ### Sending -/

/-- Hand a value over: to the buffer if there is room, or directly to a waiting receiver if
there is no buffer. -/
def give? (m : Machine) (id : ChainId) (c : Chain) (ch : ChannelId) (v : Value) :
    Option Machine :=
  let channel := m.store.channel ch
  if channel.hasRoom then
    some (((m.mapStore fun s => s.pushValue ch v).callReceiver ch).setChain id c.proceed)
  else if channel.capacity = 0 then
    (m.waitingReceiver? ch).map fun (r, receiver, purpose) =>
      (m.rouse r { receiver with stage := .received purpose (some v) }).setChain id c.proceed
  else none

/-- A step of a sending chain. -/
def send (m : Machine) (id : ChainId) (c : Chain) (ch : ChannelId) (v : Value) :
    SendPhase → Machine
  | .check =>
    if (m.store.channel ch).closed then
      m.setChain id (c.exit (.error (.fault .sendOnClosed)))
    else
      m.setChain id { c with stage := .send ch v .offer }
  | .offer =>
    match m.give? id c ch v with
    | some m => m
    | none =>
      if (m.store.channel ch).closed then m
      else m.park id { c with stage := .send ch v .parked }
  | .parked =>
    if (m.store.channel ch).closed then m.rouse id { c with stage := .send ch v .offer }
    else m

/-! ### Receiving -/

/-- Take a value: from the buffer, or directly from a waiting sender if there is no buffer. -/
def take? (m : Machine) (id : ChainId) (c : Chain) (ch : ChannelId) (purpose : Purpose) :
    Option Machine :=
  let channel := m.store.channel ch
  match channel.buffer with
  | v :: _ =>
    some (((m.mapStore fun s => s.popValue ch).callSender ch).setChain id
      { c with stage := .received purpose (some v) })
  | [] =>
    if channel.capacity = 0 then
      (m.waitingSender? ch).map fun (s, sender, v) =>
        (m.rouse s sender.proceed).setChain id { c with stage := .received purpose (some v) }
    else none

/-- A step of a receiving chain. -/
def receive (m : Machine) (id : ChainId) (c : Chain) (ch : ChannelId) (purpose : Purpose) :
    ReceivePhase → Machine
  | .attempt =>
    match m.take? id c ch purpose with
    | some m => m
    | none => m.setChain id { c with stage := .receive ch purpose .check }
  | .check =>
    let phase := if (m.store.channel ch).closed then .drain else .offer
    m.setChain id { c with stage := .receive ch purpose phase }
  | .offer =>
    match m.take? id c ch purpose with
    | some m => m
    | none =>
      if (m.store.channel ch).closed then m
      else m.park id { c with stage := .receive ch purpose .parked }
  | .parked =>
    if (m.store.channel ch).closed then
      m.rouse id { c with stage := .receive ch purpose .offer }
    else m
  | .drain =>
    match m.take? id c ch purpose with
    | some m => m
    | none => m.setChain id { c with stage := .received purpose none }

/-! ### Closed channels -/

/-- A chain that has an offer on a closed channel may also see that it is closed: a sender
stops, and a receiver turns to what is still buffered. -/
def seeClosed (m : Machine) (id : ChainId) : Machine :=
  match m.chain? id with
  | none => m
  | some c =>
    match c.stage with
    | .send ch _ .offer =>
      if (m.store.channel ch).closed then
        m.setChain id (c.exit (.error (.fault .sendOnClosed)))
      else m
    | .receive ch purpose .offer =>
      if (m.store.channel ch).closed then
        m.setChain id { c with stage := .receive ch purpose .drain }
      else m
    | _ => m

end Machine

end Flowgraph
