import Flowgraph.Machine.Move

/-!
# Schedules

A schedule picks moves. The one given here lets chains work in turns: a chain keeps its turn
until it has to wait or has used up its share of moves. Work takes time, so sleepers wake up
also while others are busy; when nobody can work, time passes until the next sleeper wakes up.

Every machine that a schedule leads to is reached by moves, so what holds under all orders of
moves holds under this one.
-/

namespace Flowgraph

/-- Whose turn it is. -/
structure Turn where
  /-- The place of the chain. -/
  place : Nat
  /-- How many moves it has left. -/
  left : Nat
  /-- How many moves were made since time last passed. -/
  spent : Nat

namespace Turn

/-- How many moves a chain makes before others get their turn. -/
def share : Nat := 200

/-- How many moves take a tenth of a millisecond. -/
def pace : Nat := 1000

/-- A fresh turn of a chain. -/
def fresh (place : Nat) : Turn := ⟨place, share, 0⟩

/-- The turn after a move of the chain at a place. -/
def next (t : Turn) (place : Nat) : Turn :=
  ⟨place, if place = t.place then t.left - 1 else share - 1, t.spent + 1⟩

end Turn

namespace Machine

/-- The move that a chain can make. -/
def moveOf? (m : Machine) (id : ChainId) (c : Chain) : Option Move :=
  match c.stage with
  | .ended _ | .lost => none
  | .sleep time => if time ≤ m.clock then some (.run id) else none
  | .join (h :: _) => if m.hasEnded h then some (.run id) else none
  | .send ch _ .parked | .receive ch _ .parked =>
    if (m.store.channel ch).closed then some (.run id) else none
  | .send ch _ .offer =>
    let channel := m.store.channel ch
    if channel.closed && !channel.hasRoom then some (.seeClosed id) else some (.run id)
  | .receive ch _ .offer =>
    let channel := m.store.channel ch
    if channel.closed && channel.buffer.isEmpty then some (.seeClosed id) else some (.run id)
  | _ => some (.run id)

/-- The move of the chain at a place. -/
def moveAt? (m : Machine) (i : Nat) : Option Move :=
  match m.chains[i]? with
  | some c => m.moveOf? ⟨i⟩ c
  | none => none

/-- The first of `count` chains behind place `i`, going round, that can move, with its move. -/
def nextMove? (m : Machine) (i : Nat) : Nat → Option (Nat × Move)
  | 0 => none
  | count + 1 =>
    let j := if i + 1 < m.chains.size then i + 1 else 0
    match m.moveAt? j with
    | some move => some (j, move)
    | none => m.nextMove? j count

/-- The chain that moves next, with its move: the one whose turn it is, or the next one that
can move. -/
def choose? (m : Machine) (turn : Turn) : Option (Nat × Move) :=
  match if turn.left = 0 then none else m.moveAt? turn.place with
  | some move => some (turn.place, move)
  | none => m.nextMove? turn.place m.chains.size

/-- The sleeper that wakes up first, with the time at which it does. -/
def sleeper? (m : Machine) : Option (Nat × Nat) :=
  m.chains.toList.zipIdx.foldl (fun best (c, i) =>
    match c.stage, best with
    | .sleep time, some (_, earliest) => if time < earliest then some (i, time) else best
    | .sleep time, none => some (i, time)
    | _, _ => best) none

/-- How many microseconds a sleeper oversleeps. -/
def oversleep : Nat := 60

/-- Make at most `fuel` moves, until a chain has ended or nothing can happen any more. -/
def drive (goal : ChainId) : Nat → Turn → Machine → Machine
  | 0, _, m => m
  | fuel + 1, turn, m =>
    if m.hasEnded goal then m
    else if Turn.pace ≤ turn.spent then
      drive goal fuel { turn with spent := 0 } (m.step (.pass 100))
    else
      match m.choose? turn with
      | some (i, move) => drive goal fuel (turn.next i) (m.step move)
      | none =>
        match m.sleeper? with
        | some (i, time) =>
          drive goal fuel (.fresh i) (m.step (.pass (time + oversleep - m.clock)))
        | none => m

theorem reaches_drive (goal : ChainId) (fuel : Nat) (turn : Turn) (m : Machine) :
    Reaches m (m.drive goal fuel turn) := by
  induction fuel generalizing turn m with
  | zero => exact .refl m
  | succ fuel ih =>
    rw [drive]
    split
    · exact .refl m
    · split
      · exact .step m _ (ih _ _)
      · split
        · exact .step m _ (ih _ _)
        · split
          · exact .step m _ (ih _ _)
          · exact .refl m

end Machine

end Flowgraph
