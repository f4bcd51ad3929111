import Mathlib.Data.Nat.Find
import Flowgraph.Proofs.Assign.Reading
import Flowgraph.Proofs.Pointers.Elements
import Flowgraph.Proofs.Steps
import Flowgraph.Proofs.Walks

/-!
# Visits of a loop

A loop is a range node that a chain comes to in a frame, again and again. Each time it performs the
node is a visit. What the chain does between two visits, and what other chains do, is not looked at
here: a course gives the machines at all times, and visits are picked from it.
-/

namespace Flowgraph

/-- A range node with its operands and successors, the frame in which it is performed and the chain
that performs it. -/
structure Loop where
  chain : ChainId
  frame : FrameId
  node : NodeId
  /-- The slot of the flag; that of the position comes after it. -/
  slot : Nat
  key : NodeId
  value : NodeId
  collection : NodeId
  /-- Where the body begins. -/
  body : Option NodeId
  /-- Where the walk goes on when the loop has come to its end. -/
  rest : NodeId

/-- The machines at all times. They run the same program. -/
structure Course where
  machine : Nat → Machine
  program : ∀ t t', (machine t).program = (machine t').program

namespace Course

/-- The machines that moves lead to, one after the other. -/
def afterMoves (start : Machine) (moves : Nat → Move) : Nat → Machine
  | 0 => start
  | t + 1 => (afterMoves start moves t).step (moves t)

lemma program_afterMoves (start : Machine) (moves : Nat → Move) (t : Nat) :
    (afterMoves start moves t).program = start.program := by
  induction t with
  | zero => rfl
  | succ t ih => rw [afterMoves, Machine.program_step, ih]

/-- The course in which moves are made one after the other. -/
def ofMoves (start : Machine) (moves : Nat → Move) : Course where
  machine := afterMoves start moves
  program t t' := by rw [program_afterMoves, program_afterMoves]

end Course

namespace Loop

variable {L : Loop} {p : Program} {m m' : Machine} {c : Chain} {s s' : Store} {C : Course}
  {t t' t₀ k : Nat}

/-- The program has the node of the loop. -/
def In (L : Loop) (p : Program) : Prop :=
  ∃ n, p.node L.node = .ok n ∧ n.kind = .range ∧ n.level = 0 ∧ n.slot = some L.slot ∧
    n.next = L.body ∧ n.otherwise = some L.rest ∧ n.children[0]? = some L.key ∧
    n.children[1]? = some L.value ∧ n.children[2]? = some L.collection

/-- The collection is read as a value. The flag and the position have slots in the frame, and each
destination is blank or denotes a slot. -/
structure Ready (L : Loop) (p : Program) (s : Store) (v : Value) : Prop where
  node : L.In p
  size : L.slot + 1 < s.frameSize L.frame
  key : ∃ kt, p.Targets s L.frame L.key kt
  value : ∃ vt, p.Targets s L.frame L.value vt
  collection : p.value L.frame L.collection s = .ok v

/-- The chain is about to perform the node. -/
def Reached (L : Loop) (m : Machine) : Prop :=
  ∃ c a depth rest, m.chain? L.chain = some c ∧ c.stage = .walk ∧
    c.walks = ⟨a, some L.node, depth⟩ :: rest ∧ a.frame = L.frame

/-- What the position slot holds. -/
def position (L : Loop) (s : Store) : Value := (s.slot? L.frame (L.slot + 1)).getD .nil

/-! ### Times of visits -/

/-- The chain performs the node at a time. -/
def VisitedAt (L : Loop) (C : Course) (t : Nat) : Prop :=
  L.Reached (C.machine t) ∧ C.machine (t + 1) = (C.machine t).step (.run L.chain)

/-- The next visit after one at a time. -/
structure Next (L : Loop) (C : Course) (t t' : Nat) : Prop where
  lt : t < t'
  visited : L.VisitedAt C t'
  between : ∀ u, t < u → u < t' → ¬L.VisitedAt C u

/-- The visits from one on, in the order in which they take place. -/
inductive Nth (L : Loop) (C : Course) (t₀ : Nat) : Nat → Nat → Prop
  | zero (h : L.VisitedAt C t₀) : Nth L C t₀ 0 t₀
  | succ {k t t' : Nat} (h : Nth L C t₀ k t) (hnext : L.Next C t t') : Nth L C t₀ (k + 1) t'

lemma Nth.visitedAt (h : L.Nth C t₀ k t) : L.VisitedAt C t := by
  cases h with
  | zero h => exact h
  | succ _ hnext => exact hnext.visited

/-- If there is a visit later on, then there is a next one. -/
lemma exists_next (hlt : t < t') (h : L.VisitedAt C t') : ∃ u, L.Next C t u := by
  classical
  have hex : ∃ u, t < u ∧ L.VisitedAt C u := ⟨t', hlt, h⟩
  obtain ⟨hfirst, hvisited⟩ := Nat.find_spec hex
  exact ⟨Nat.find hex, hfirst, hvisited, fun u htu hu hvu => Nat.find_min hex hu ⟨htu, hvu⟩⟩

lemma Next.unique {u : Nat} (h : L.Next C t t') (h' : L.Next C t u) : t' = u := by
  rcases Nat.lt_trichotomy t' u with hlt | he | hlt
  · exact absurd h.visited (h'.between t' h.lt hlt)
  · exact he
  · exact absurd h'.visited (h.between u h'.lt hlt)

lemma Nth.unique (h : L.Nth C t₀ k t) (h' : L.Nth C t₀ k t') : t = t' := by
  induction h generalizing t' with
  | zero =>
    cases h'
    rfl
  | succ _ hnext ih =>
    cases h' with
    | succ h' hnext' =>
      cases ih h'
      exact hnext.unique hnext'

/-! ### What a visit leaves -/

/-- A visit has found one more element: key and value have been stored into their destinations, then
the position has moved on, and the flag says that there was one. -/
def Yields (L : Loop) (p : Program) (s s' : Store) (key value next : Value) : Prop :=
  ∃ kt vt, p.Targets s L.frame L.key kt ∧ p.Targets s L.frame L.value vt ∧
    s.Stored [kt, vt, some (L.frame, L.slot + 1), some (L.frame, L.slot)]
      [key, value, next, .bool true] s'

/-- A visit has found no more element: the position has been cleared, and the flag says that there
was none. Nothing else has changed. -/
def Finishes (L : Loop) (s s' : Store) : Prop :=
  s.Stored [some (L.frame, L.slot + 1), some (L.frame, L.slot)] [.nil, .bool false] s'

/-- The chain has performed the node. It goes on into the body if the flag is true, and behind the
loop if it is false. -/
structure Leaves (L : Loop) (m m' : Machine) (flag : Bool) : Prop where
  told : m'.store.slot? L.frame L.slot = some (.bool flag)
  chain : ∃ c, m.chain? L.chain = some c ∧
    m'.chain? L.chain = some { c with stage := .follow }
  successor : m'.program.successor L.frame L.node m'.store
    = .ok (if flag then L.body else some L.rest)

/-! ### Performing the node -/

section Perform

variable {n : Node} {v : Value} {kt vt : Option Site} {key value next : Value}

lemma successor_eq (h : L.In p) {b : Bool}
    (hflag : s.slot? L.frame L.slot = some (.bool b)) :
    p.successor L.frame L.node s = .ok (if b then L.body else some L.rest) := by
  obtain ⟨n, hn, hk, hlevel, hslot, hbody, hrest, -⟩ := h
  have hvar : p.Variable L.node L.slot 0 := ⟨n, hn, by rw [hk]; decide, hslot, hlevel⟩
  rw [Program.successor_of_bool hn hrest (hvar.value_ok rfl hflag), hbody]

lemma rangeSlot_eq (hn : p.node L.node = .ok n) (hslot : n.slot = some L.slot) :
    p.rangeSlot L.node = .ok L.slot := by
  simp only [Program.rangeSlot, hn, bind, Except.bind, hslot]
  rfl

/-- A visit that finds an element. -/
lemma visit_apply (h : L.In p) (hsize : L.slot + 1 < s.frameSize L.frame)
    (hkt : p.Targets s L.frame L.key kt) (hvt : p.Targets s L.frame L.value vt) :
    ∃ s', p.visit L.frame L.node key value next s = .ok () s' ∧
      s.Stored [kt, vt, some (L.frame, L.slot + 1), some (L.frame, L.slot)]
        [key, value, next, .bool true] s' := by
  obtain ⟨n, hn, -, -, hslot, -, -, hkey, hvalue, -⟩ := h
  refine ⟨_, ?_, Store.stored_writeAll rfl fun l hl => ?_⟩
  · rw [Program.visit, Op.except_bind_apply, rangeSlot_eq hn hslot]
    dsimp only
    rw [Op.except_bind_apply, Program.child_of_node hn hkey]
    dsimp only
    rw [Op.bind_apply, hkt.assignTo]
    dsimp only
    rw [Op.except_bind_apply, Program.child_of_node hn hvalue]
    dsimp only
    rw [Op.bind_apply, (hvt.write kt key).assignTo]
    dsimp only
    rw [Op.bind_apply, Op.modify_apply]
    dsimp only
    rw [Program.setOwn_apply hn hslot]
    · rfl
    · rw [Store.frameSize_setSlot, Store.frameSize_write, Store.frameSize_write]
      omega
  · simp only [List.mem_cons, List.not_mem_nil, or_false] at hl
    rcases hl with rfl | rfl | hl | hl
    · exact hkt.lt
    · exact hvt.lt
    · cases hl
      exact hsize
    · cases hl
      exact Nat.lt_of_succ_lt hsize

/-- A visit that finds none. -/
lemma finish_apply (h : L.In p) (hsize : L.slot + 1 < s.frameSize L.frame) :
    ∃ s', p.finish L.frame L.node s = .ok () s' ∧ L.Finishes s s' := by
  obtain ⟨n, hn, -, -, hslot, -⟩ := h
  refine ⟨_, ?_, Store.stored_writeAll rfl fun l hl => ?_⟩
  · rw [Program.finish, Op.except_bind_apply, rangeSlot_eq hn hslot]
    dsimp only
    rw [Op.bind_apply, Op.modify_apply]
    dsimp only
    rw [Program.setOwn_apply hn hslot]
    · rfl
    · rw [Store.frameSize_setSlot]
      omega
  · simp only [List.mem_cons, List.not_mem_nil, or_false] at hl
    rcases hl with hl | hl
    · cases hl
      exact hsize
    · cases hl
      exact Nat.lt_of_succ_lt hsize

/-- What a visit finds at a position. -/
def iteration (v w : Value) : Op Iteration :=
  match v with
  | .map d => Op.iterateMap d w
  | v => do Look.iterate v (← sequencePosition w)

lemma position_eq (hsize : L.slot + 1 < s.frameSize L.frame) :
    s.slot? L.frame (L.slot + 1) = some (L.position s) := by
  have hget : s.slot? L.frame (L.slot + 1) = some _ := Array.getElem?_eq_getElem hsize
  rw [position, hget, Option.getD_some]

lemma perform_eq (h : L.Ready p s v) : p.perform L.frame L.node s =
    (iteration v (L.position s) >>= fun found => match found with
      | .visit key value next => do
        p.visit L.frame L.node key value next
        return .done
      | .finished => do
        p.finish L.frame L.node
        return .done
      | .await c next => return .receive c (.visit next) : Op Pending) s := by
  obtain ⟨n, hn, hk, -, hslot, -, -, hkey, hvalue, hcollection⟩ := h.node
  have hoperand : p.operand L.frame L.node 2 s = .ok v :=
    (Look.bind_ok (Program.child_of_node hn hcollection)).trans h.collection
  rw [Program.perform_of_node hn, hk]
  change p.range L.frame L.node s = _
  rw [Program.range, Op.except_bind_apply, rangeSlot_eq hn hslot]
  dsimp only
  rw [Op.except_bind_apply, Program.child_of_node hn hkey]
  dsimp only
  rw [Op.except_bind_apply, Program.child_of_node hn hvalue]
  dsimp only
  rw [Op.look_bind_apply, hoperand]
  dsimp only
  rw [Op.bind_apply, Op.get_apply]
  dsimp only
  rw [position_eq h.size]
  cases v with
  | map d => rfl
  | _ =>
    simp only [iteration, bind_assoc]
    rfl

/-- A visit that finds an element stores it, and is done. -/
lemma perform_of_visit (h : L.Ready p s v)
    (hfound : iteration v (L.position s) s = .ok (.visit key value next) s')
    (hframes : s'.frames = s.frames) :
    ∃ t, p.perform L.frame L.node s = .ok .done t ∧ L.Yields p s' t key value next := by
  obtain ⟨kt, hkt⟩ := h.key
  obtain ⟨vt, hvt⟩ := h.value
  have hkt' := hkt.of_frames hframes
  have hvt' := hvt.of_frames hframes
  have hsize : L.slot + 1 < s'.frameSize L.frame := by
    rw [Store.frameSize_of_frames hframes]
    exact h.size
  obtain ⟨t, hvisit, hstored⟩ := visit_apply h.node hsize hkt' hvt'
  refine ⟨t, ?_, kt, vt, hkt', hvt', hstored⟩
  rw [perform_eq h, Op.bind_apply, hfound]
  dsimp only
  rw [Op.bind_apply, hvisit]
  rfl

/-- A visit that finds none ends the loop, and is done. -/
lemma perform_of_finished (h : L.Ready p s v)
    (hfound : iteration v (L.position s) s = .ok .finished s') (hframes : s'.frames = s.frames) :
    ∃ t, p.perform L.frame L.node s = .ok .done t ∧ L.Finishes s' t := by
  have hsize : L.slot + 1 < s'.frameSize L.frame := by
    rw [Store.frameSize_of_frames hframes]
    exact h.size
  obtain ⟨t, hfinish, hstored⟩ := finish_apply h.node hsize
  refine ⟨t, ?_, hstored⟩
  rw [perform_eq h, Op.bind_apply, hfound]
  dsimp only
  rw [Op.bind_apply, hfinish]
  rfl

/-- The step in which a chain performs the node. -/
lemma Reached.step_eq (h : L.Reached m) {s' : Store}
    (hperform : m.program.perform L.frame L.node m.store = .ok .done s') :
    ∃ c, m.chain? L.chain = some c ∧
      m.step (.run L.chain) =
        (m.mapStore fun _ => s').setChain L.chain { c with stage := .follow } := by
  obtain ⟨c, a, depth, rest, hc, hs, hw, hframe⟩ := h
  rw [← hframe] at hperform
  exact ⟨c, hc, Machine.step_of_steps hc (.operation hs hw rfl hperform)⟩

lemma Reached.leaves (h : L.Reached m) (hin : L.In m.program) {s' : Store} {b : Bool}
    (hperform : m.program.perform L.frame L.node m.store = .ok .done s')
    (hflag : s'.slot? L.frame L.slot = some (.bool b)) :
    (m.step (.run L.chain)).store = s' ∧ L.Leaves m (m.step (.run L.chain)) b := by
  obtain ⟨c, hc, hstep⟩ := h.step_eq hperform
  rw [hstep]
  exact ⟨rfl, hflag, ⟨c, hc, Machine.chain?_setChain_self hc⟩, successor_eq hin hflag⟩

lemma Yields.flag (h : L.Yields p s s' key value next) :
    s'.slot? L.frame L.slot = some (.bool true) := by
  obtain ⟨kt, vt, -, -, hstored⟩ := h
  refine hstored.last 3 (L.frame, L.slot) rfl fun j hj => ?_
  rw [List.getElem?_eq_none (Nat.succ_le_of_lt hj)]
  exact fun h => by cases h

lemma Yields.position (h : L.Yields p s s' key value next) : L.position s' = next := by
  obtain ⟨kt, vt, -, -, hstored⟩ := h
  have hnext := hstored.last 2 (L.frame, L.slot + 1) rfl fun j hj => ?_
  · rw [Loop.position, hnext]
    rfl
  · match j with
    | 3 => exact fun h => Nat.succ_ne_self L.slot (Prod.mk.inj (Option.some.inj
        (Option.some.inj h))).2.symm
    | j + 4 => exact fun h => by cases h

lemma Finishes.flag (h : L.Finishes s s') : s'.slot? L.frame L.slot = some (.bool false) := by
  refine h.last 1 (L.frame, L.slot) rfl fun j hj => ?_
  rw [List.getElem?_eq_none (Nat.succ_le_of_lt hj)]
  exact fun h => by cases h

lemma Finishes.position (h : L.Finishes s s') : L.position s' = .nil := by
  have hnil := h.last 0 (L.frame, L.slot + 1) rfl fun j hj => ?_
  · rw [Loop.position, hnil]
    rfl
  · match j with
    | 1 => exact fun h => Nat.succ_ne_self L.slot (Prod.mk.inj (Option.some.inj
        (Option.some.inj h))).2.symm
    | j + 2 => exact fun h => by cases h

/-- A visit that finds an element without changing anything before it. -/
lemma VisitedAt.yields (h : L.VisitedAt C t)
    (hready : L.Ready (C.machine t).program (C.machine t).store v)
    (hfound : iteration v (L.position (C.machine t).store) (C.machine t).store =
      .ok (.visit key value next) (C.machine t).store) :
    L.Yields (C.machine t).program (C.machine t).store (C.machine (t + 1)).store key value next ∧
      L.Leaves (C.machine t) (C.machine (t + 1)) true := by
  obtain ⟨hreached, hstep⟩ := h
  obtain ⟨s', hperform, hyields⟩ := perform_of_visit hready hfound rfl
  obtain ⟨hs, hleaves⟩ := hreached.leaves hready.node hperform hyields.flag
  rw [hstep, hs]
  exact ⟨hyields, hleaves⟩

/-- A visit that finds none, and changes nothing before it says so. -/
lemma VisitedAt.finishes (h : L.VisitedAt C t)
    (hready : L.Ready (C.machine t).program (C.machine t).store v)
    (hfound : iteration v (L.position (C.machine t).store) (C.machine t).store =
      .ok .finished (C.machine t).store) :
    L.Finishes (C.machine t).store (C.machine (t + 1)).store ∧
      L.Leaves (C.machine t) (C.machine (t + 1)) false := by
  obtain ⟨hreached, hstep⟩ := h
  obtain ⟨s', hperform, hfinishes⟩ := perform_of_finished hready hfound rfl
  obtain ⟨hs, hleaves⟩ := hreached.leaves hready.node hperform hfinishes.flag
  rw [hstep, hs]
  exact ⟨hfinishes, hleaves⟩

end Perform

end Loop

end Flowgraph
