import Mathlib.Tactic.Common
import Flowgraph.Proofs.Steps

/-!
# What is done on a channel

Machines go on by moves of their chains and by what a host does. What is done on one channel on
the way makes a history: sends complete or fail, receives are answered, and the channel is closed.
A history is read off the stages of the chains before and after each act.

`Channel.Does` says what may be done on a channel at once and what becomes of its content, and
`Channel.Trace` what may be done one after the other.
-/

namespace Flowgraph

/-! ### Deeds -/

/-- What is done on a channel. -/
inductive Deed where
  /-- The send of a value has completed. -/
  | sent (v : Value)
  /-- The send of a value has failed. -/
  | unsent (v : Value) (e : Stop)
  /-- A receive has its answer: a value, or none from a closed and drained channel. -/
  | received (v : Option Value)
  /-- A close has succeeded or failed. -/
  | closed (outcome : Except Stop Unit)

namespace Deed

/-- The value whose send has completed. -/
def sent? : Deed → Option Value
  | sent v => some v
  | _ => none

/-- The value that was received. -/
def taken? : Deed → Option Value
  | received v => v
  | _ => none

/-- How a close has ended. -/
def closed? : Deed → Option (Except Stop Unit)
  | closed outcome => some outcome
  | _ => none

end Deed

/-- What a chain has done on a channel when it goes from one stage to another; `closes` says
whether it was about to close the channel. -/
def Stage.deed? (ch : ChannelId) (closes : Bool) : Stage → Stage → Option Deed
  | .send ch' v _, .follow | .send ch' v _, .exit (.ok _) =>
    if ch' = ch then some (.sent v) else none
  | .send ch' v _, .exit (.error e) => if ch' = ch then some (.unsent v e) else none
  | .receive ch' _ _, .received _ v => if ch' = ch then some (.received v) else none
  | .walk, .follow => if closes then some (.closed (.ok ())) else none
  | .walk, .exit (.error e) => if closes then some (.closed (.error e)) else none
  | _, _ => none

/-- The channel that a chain is about to close: it has reached a node that closes its operand. -/
def Chain.closing? (p : Program) (s : Store) (c : Chain) : Option ChannelId :=
  match c.stage, c.walks with
  | .walk, ⟨a, some id, _⟩ :: _ =>
    match p.node id, p.operand a.frame id 1 s with
    | .ok n, .ok (.chan ch) => if n.kind = .close then some ch else none
    | _, _ => none
  | _, _ => none

/-! ### Acts -/

/-- What makes a machine go on: moves, and what a host does, which begins chains, closes channels,
and changes the store, but no channel that is there. -/
inductive Act where
  | move (mv : Move)
  | host (c : Chain) (h : c.Hosted)
  | close (ch : ChannelId)
  | change (f : Store → Store) (h : ∀ s, s.channels.size ≤ (f s).channels.size ∧ ∀ ch,
      (f s).channel ch = s.channel ch ∨
        s.channels.size ≤ ch.index ∧ ∃ capacity, (f s).channel ch = { capacity := capacity })

namespace Machine

/-- What a machine becomes by an act. -/
def act (m : Machine) : Act → Machine
  | .move mv => m.step mv
  | .host c _ => (m.addChain c).2
  | .close ch => (m.onStore (Op.close ch)).2
  | .change f _ => m.mapStore f

/-- What a machine becomes by acts, one after the other. -/
def after (m : Machine) (acts : List Act) : Machine := acts.foldl act m

/-- What a chain has done on a channel while one machine became another. -/
def deed? (m m' : Machine) (ch : ChannelId) (x : ChainId) : Option Deed := do
  let c ← m.chain? x
  let c' ← m'.chain? x
  Stage.deed? ch (c.closing? m.program m.store = some ch) c.stage c'.stage

/-- What a function says of the chains, in their order. -/
def collect {α : Type} (m : Machine) (f : ChainId → Option α) : List α :=
  (List.range m.chains.size).filterMap fun i => f ⟨i⟩

/-- What is done on a channel by an act. A value that passes from one chain to another is sent
before it is received. -/
def deeds (m : Machine) (ch : ChannelId) : Act → List Deed
  | .move mv =>
    let deed := m.deed? (m.step mv) ch
    (m.collect fun x => (deed x).filter fun d => d.sent?.isSome) ++
      m.collect fun x => (deed x).filter fun d => d.sent?.isNone
  | .close ch' => if ch' = ch then [.closed (m.onStore (Op.close ch)).1] else []
  | .host _ _ | .change _ _ => []

/-- What is done on a channel by acts, one after the other. -/
def history (m : Machine) (ch : ChannelId) : List Act → List Deed
  | [] => []
  | a :: acts => m.deeds ch a ++ (m.act a).history ch acts

variable {m : Machine} {ch : ChannelId}

@[simp] lemma after_cons (m : Machine) (a : Act) (acts : List Act) :
    m.after (a :: acts) = (m.act a).after acts := rfl

lemma after_append (m : Machine) (acts acts' : List Act) :
    m.after (acts ++ acts') = (m.after acts).after acts' := List.foldl_append

lemma history_append (acts acts' : List Act) :
    m.history ch (acts ++ acts') = m.history ch acts ++ (m.after acts).history ch acts' := by
  induction acts generalizing m with
  | nil => rfl
  | cons a acts ih =>
    rw [List.cons_append, history, ih, after_cons, history, List.append_assoc]

lemma after_concat (m : Machine) (acts : List Act) (a : Act) :
    m.after (acts ++ [a]) = (m.after acts).act a := after_append m acts [a]

lemma history_concat (acts : List Act) (a : Act) :
    m.history ch (acts ++ [a]) = m.history ch acts ++ (m.after acts).deeds ch a := by
  rw [history_append, history, history, List.append_nil]

/-! ### Collected deeds -/

lemma collect_none {α : Type} {f : ChainId → Option α} (h : ∀ x, f x = none) :
    m.collect f = [] :=
  List.filterMap_eq_nil_iff.mpr fun _ _ => h _

lemma mem_collect {α : Type} {f : ChainId → Option α} {x : ChainId} {c : Chain} {a : α}
    (hx : m.chain? x = some c) (ha : f x = some a) : a ∈ m.collect f := by
  have hlt : x.index < m.chains.size := (Array.getElem?_eq_some_iff.mp hx).1
  exact List.mem_filterMap.mpr ⟨x.index, List.mem_range.mpr hlt, ha⟩

/-- Only one chain has something to say. -/
lemma collect_single {α : Type} {f : ChainId → Option α} {x : ChainId} {c : Chain}
    (hx : m.chain? x = some c) (h : ∀ y, y ≠ x → f y = none) :
    m.collect f = (f x).toList := by
  have hlt : x.index < m.chains.size := (Array.getElem?_eq_some_iff.mp hx).1
  have hsplit : List.range m.chains.size =
      List.range x.index ++ x.index :: List.range' (x.index + 1) (m.chains.size - x.index - 1) := by
    rw [List.range_eq_range', List.range_eq_range', ← List.range'_succ,
      Nat.sub_add_cancel (by omega)]
    have happend := List.range'_append_1 (s := 0) (m := x.index) (n := m.chains.size - x.index)
    rw [Nat.zero_add, Nat.add_sub_cancel' (Nat.le_of_lt hlt)] at happend
    exact happend.symm
  have hbefore : (List.range x.index).filterMap (fun i => f ⟨i⟩) = [] := by
    refine List.filterMap_eq_nil_iff.mpr fun i hi => h ⟨i⟩ ?_
    rintro rfl
    exact Nat.lt_irrefl _ (List.mem_range.mp hi)
  have hbehind : (List.range' (x.index + 1) (m.chains.size - x.index - 1)).filterMap
      (fun i => f ⟨i⟩) = [] := by
    refine List.filterMap_eq_nil_iff.mpr fun i hi => h ⟨i⟩ ?_
    rintro rfl
    have hle := (List.mem_range'_1.mp hi).1
    exact Nat.not_succ_le_self _ hle
  rw [collect, hsplit, List.filterMap_append, hbefore, List.nil_append, List.filterMap_cons]
  cases f x with
  | none => exact hbehind
  | some a =>
    dsimp only
    rw [hbehind]
    rfl

end Machine

/-! ### What may be done on a channel -/

/-- What may be done on a channel at once, and what becomes of the channel. -/
inductive Channel.Does : Channel → List Deed → Channel → Prop
  | nothing (c : Channel) : Does c [] c
  | push {c : Channel} (h : c.hasRoom = true) (v : Value) :
    Does c [.sent v] { c with buffer := c.buffer ++ [v] }
  | refuse {c : Channel} (h : c.closed = true) (v : Value) :
    Does c [.unsent v (.fault .sendOnClosed)] c
  | pop {c : Channel} {v : Value} {rest : List Value} (h : c.buffer = v :: rest) :
    Does c [.received (some v)] { c with buffer := rest }
  | pass {c : Channel} (h : c.capacity = 0) (ho : c.closed = false) (hb : c.buffer = [])
    (v : Value) : Does c [.sent v, .received (some v)] c
  | dry {c : Channel} (h : c.closed = true) (hb : c.buffer = []) : Does c [.received none] c
  | close {c : Channel} (h : c.closed = false) :
    Does c [.closed (.ok ())] { c with closed := true }
  | closeAgain {c : Channel} (h : c.closed = true) :
    Does c [.closed (.error (.fault .closeOfClosed))] c

/-- What may be done on a channel one after the other. -/
inductive Channel.Trace : Channel → List Deed → Channel → Prop
  | nil (c : Channel) : Trace c [] c
  | cons {c c' c'' : Channel} {ds ds' : List Deed} (h : Does c ds c') (h' : Trace c' ds' c'') :
    Trace c (ds ++ ds') c''

end Flowgraph
