import Flowgraph.Proofs.Frames
import Flowgraph.Proofs.Streams.Pipes
import Flowgraph.Proofs.Writes.Spared

/-!
# Rounds of a loop over a channel

What the node of such a loop does in a frame where it is well shaped: it asks the channel, and then
visits the value that was received, or ends the loop when there is none. It does not fail.
-/

namespace Flowgraph

/-- What reading an operand stops with: a node, a frame or a slot is not there. -/
def Stop.isMissing : Stop → Bool
  | panic _ | fault (.malformed _ .missingOperand) | fault (.malformed _ .levelTooDeep)
  | fault (.malformed _ .slotBeyondFrame) => true
  | _ => false

/-- A look goes on with what it has found. -/
lemma Look.bind_ok {α β : Type} {look : Look α} {next : α → Look β} {s : Store} {a : α}
    (h : look s = .ok a) : (look >>= next) s = next a s := by
  change (look s >>= fun a => next a s) = next a s
  rw [h]
  rfl

/-- What a look finds after another one, it finds after the other one has found something. -/
lemma Look.of_bind {α β : Type} {look : Look α} {next : α → Look β} {s : Store} {b : β}
    (h : (look >>= next) s = .ok b) : ∃ a, look s = .ok a ∧ next a s = .ok b := by
  cases ha : look s with
  | ok a => exact ⟨a, rfl, (Look.bind_ok ha).symm.trans h⟩
  | error e =>
    change (look s >>= fun a => next a s) = _ at h
    rw [ha] at h
    cases h

namespace Program

variable {p : Program} {s : Store} {f owner : FrameId} {id d : NodeId} {n : Node} {i k : Nat}
  {v : Value}

/-! ### Destinations -/

lemma setSlot_apply (h : i < s.frameSize f) (v : Value) (missing : Stop) :
    Op.setSlot f i v missing s = .ok () (s.setSlot f i v) := by
  rw [Op.setSlot, Op.bind_apply, Op.get_apply]
  dsimp only
  rw [if_pos h]
  rfl

lemma setOwn_apply (hn : p.node id = .ok n) (hi : n.slot = some i) (hlt : i < s.frameSize f)
    (v : Value) : p.setOwn f id v s = .ok () (s.setSlot f i v) := by
  rw [setOwn, Op.except_bind_apply, hn]
  dsimp only
  rw [hi]
  exact setSlot_apply hlt v _

lemma Denotes.setSlot (h : p.Denotes s f id k owner i) (g : FrameId) (j : Nat) (w : Value) :
    p.Denotes (s.setSlot g j w) f id k owner i := by
  obtain ⟨d, n, hd, hn, hk, hi, ho, hlt⟩ := h
  refine ⟨d, n, hd, hn, hk, hi, ?_, by rwa [Store.frameSize_setSlot]⟩
  rwa [(Store.Spares.refl (fun _ _ => True) s |>.setSlot trivial w).ancestor?]

/-- Writing to a slot that is there succeeds. -/
lemma Denotes.assignTo (h : p.Denotes s f id k owner i) (v : Value) :
    ∃ d, p.child id k = .ok d ∧ p.assignTo f d v s = .ok () (s.setSlot owner i v) := by
  obtain ⟨d, n, hd, hn, -, hi, ho, hlt⟩ := h
  refine ⟨d, hd, ?_⟩
  rw [Program.assignTo, Op.except_bind_apply, hn]
  dsimp only
  rw [hi]
  dsimp only
  rw [Op.look_bind_apply, frameAt, ho]
  exact setSlot_apply hlt v _

lemma Blank.assignTo (h : p.Blank id k) (v : Value) :
    ∃ d, p.child id k = .ok d ∧ p.assignTo f d v s = .ok () s := by
  obtain ⟨d, n, hd, hn, hi⟩ := h
  refine ⟨d, hd, ?_⟩
  rw [Program.assignTo, Op.except_bind_apply, hn]
  dsimp only
  rw [hi]
  rfl

/-- A slot that is there is read as what it holds. -/
lemma Denotes.operand (h : p.Denotes s f id k owner i) (hv : s.slot? owner i = some v) :
    p.operand f id k s = .ok v := by
  obtain ⟨d, n, hd, hn, hk, hi, ho, -⟩ := h
  have hvalue : p.value f d s = .ok v := by
    refine (Look.bind_ok hn).trans ?_
    rw [if_neg hk]
    have howner : frameAt f n.level d s = .ok owner := by rw [frameAt, ho]
    refine (Look.bind_ok howner).trans ?_
    rw [hi]
    refine (Look.bind_ok rfl).trans ?_
    rw [hv]
    rfl
  exact (Look.bind_ok hd).trans hvalue

/-- An assignment with one source and one destination copies the value of the source. -/
lemma Denotes.assign {c : NodeId} (hn : p.node id = .ok n) (hchildren : n.children = [d, c])
    (h : p.Denotes s f id 0 owner i) (hvalue : p.operand f id 1 s = .ok v) :
    p.assign f id s = .ok () (s.setSlot owner i v) := by
  have hchild : ∀ k e, n.children[k]? = some e → p.child id k = .ok e := by
    intro k e he
    simp only [Program.child, hn, Node.child?, bind, Except.bind, he]
  obtain ⟨d', hd', hset⟩ := h.assignTo v
  rw [hchild 0 d (by rw [hchildren]; rfl)] at hd'
  cases hd'
  rw [Program.operand, hchild 1 c (by rw [hchildren]; rfl)] at hvalue
  have hvs : (([c].mapM (p.value f) : Look (List Value))) s = .ok [v] := by
    rw [List.mapM_cons, List.mapM_nil]
    exact Look.bind_ok hvalue
  rw [Program.assign, Op.except_bind_apply, hn]
  dsimp only
  rw [hchildren, if_neg (by simp), List.length_cons, List.length_singleton]
  change (([c].mapM (p.value f) : Look (List Value)) >>= p.assignAll f [d] : Op Unit) s = _
  rw [Op.look_bind_apply, hvs]
  change (p.assignTo f d v >>= fun _ => pure ()) s = _
  rw [Op.bind_apply, hset]
  rfl

/-! ### Successors -/

lemma ends_node_missing (p : Program) (id : NodeId) :
    Ends (·.isMissing = true) (fun _ => True) (p.node id) := by
  rw [node]
  cases p.graph.node id with
  | ok n => trivial
  | error e => exact rfl

/-- The value of a node is found, unless something is missing in the graph or in a frame. -/
lemma gives_value_missing (p : Program) (f : FrameId) (id : NodeId) :
    Look.Gives (fun _ => True) (·.isMissing = true) (p.value f id) fun _ => True := by
  refine .bind (.lift (ends_node_missing p id)) fun n _ => ?_
  have hframe : Look.Gives (fun _ => True) (·.isMissing = true) (frameAt f n.level id)
      fun _ => True := by
    intro s _
    rw [frameAt]
    cases s.ancestor? f n.level with
    | none => exact rfl
    | some owner => trivial
  split_ifs
  · exact .pure trivial
  · refine .bind hframe fun owner _ => ?_
    cases n.slot with
    | none => exact .pure trivial
    | some slot =>
      refine .read fun s _ => ?_
      cases s.slot? owner slot with
      | none => exact rfl
      | some v => trivial

lemma gives_operand_missing (p : Program) (f : FrameId) (id : NodeId) (k : Nat) :
    Look.Gives (fun _ => True) (·.isMissing = true) (p.operand f id k) fun _ => True := by
  refine .bind (.lift (P := fun _ => True) ?_) fun c _ => gives_value_missing p f c
  refine (ends_node_missing p id).bind fun n _ => ?_
  cases n.child? k with
  | none => exact rfl
  | some c => trivial

/-- The way on from a node is found, or there is none, but it is never looked for without end. -/
lemma gives_successor_of_endless (p : Program) (f : FrameId) (id : NodeId) :
    Look.Gives (fun _ => True) (· ≠ .endless) (p.successor f id) fun _ => True := by
  have hmissing : ∀ e : Stop, e.isMissing = true → e ≠ .endless := by
    rintro _ he rfl
    cases he
  refine .bind (.lift ((ends_node_missing p id).stops hmissing)) fun n _ => ?_
  cases n.otherwise with
  | none => exact .pure trivial
  | some whenFalse =>
    have hvalue := fun s hs => (gives_value_missing p f id s hs).stops hmissing
    refine .bind hvalue fun v _ => ?_
    have hbool : Ends (· ≠ .endless) (fun _ => True) (v.asBool "branch") := by
      cases v with
      | bool b => trivial
      | _ => exact Stop.noConfusion
    refine .bind (.lift hbool) fun b _ => ?_
    split_ifs
    · exact .pure trivial
    · exact .pure trivial

end Program

namespace Pipe

variable {P : Pipe} {p : Program} {s : Store} {v : Value}

/-! ### Rounds -/

lemma Shaped.rangeSlot (h : P.Shaped p s) : p.rangeSlot P.node = .ok P.slot := by
  obtain ⟨n, hn, -, hslot⟩ := h.node
  simp only [Program.rangeSlot, hn, bind, Except.bind, hslot]
  rfl

lemma Shaped.setOwn (h : P.Shaped p s) {t : Store}
    (ht : t.frameSize P.frame = s.frameSize P.frame) (v : Value) :
    p.setOwn P.frame P.node v t = .ok () (t.setSlot P.frame P.slot v) := by
  obtain ⟨n, hn, -, hslot⟩ := h.node
  rw [Program.setOwn, Op.except_bind_apply, hn]
  dsimp only
  rw [hslot]
  exact Program.setSlot_apply (ht ▸ Nat.lt_of_succ_lt h.room) v _

/-- A value is visited: it is what the first destination is read as, and the loop goes on. -/
lemma Shaped.visit (h : P.Shaped p s) (v next : Value) :
    ∃ s', p.visit P.frame P.node v .nil next s = .ok () s' ∧
      p.operand P.frame P.node 0 s' = .ok v ∧
      s'.slot? P.frame P.slot = some (.bool true) ∧
      s'.slot? P.frame (P.slot + 1) = some next := by
  obtain ⟨owner, i, hfirst, hapart, hsecond⟩ := h.destinations
  obtain ⟨d, hd, hassign⟩ := hfirst.assignTo v
  have hafter := hfirst.setSlot owner i v
  have hheld : (s.setSlot owner i v).slot? owner i = some v := by
    obtain ⟨_, _, _, _, _, _, _, hlt⟩ := hfirst
    exact Store.slot?_setSlot_self hlt v
  obtain ⟨d', t, hd', hassign', hread, hsize⟩ : ∃ d' t, p.child P.node 1 = .ok d' ∧
      p.assignTo P.frame d' .nil (s.setSlot owner i v) = .ok () t ∧
      (t.slot? owner i = some v ∧ p.Denotes t P.frame P.node 0 owner i) ∧
      t.frameSize P.frame = s.frameSize P.frame := by
    rcases hsecond with hblank | ⟨owner', i', hsecond, hother⟩
    · obtain ⟨d', hd', hassign'⟩ := hblank.assignTo .nil
      exact ⟨d', _, hd', hassign', ⟨hheld, hafter⟩, Store.frameSize_setSlot _ _ _ _⟩
    · obtain ⟨d', hd', hassign'⟩ := (hsecond.setSlot owner i v).assignTo .nil
      refine ⟨d', _, hd', hassign', ⟨?_, hafter.setSlot _ _ _⟩, by simp⟩
      rw [Store.slot?_setSlot_of_ne fun he => (hother he.symm).symm]
      exact hheld
  refine ⟨(t.setSlot P.frame (P.slot + 1) next).setSlot P.frame P.slot (.bool true), ?_, ?_, ?_, ?_⟩
  · rw [Program.visit, Op.except_bind_apply, h.rangeSlot]
    dsimp only
    rw [Op.except_bind_apply, hd]
    dsimp only
    rw [Op.bind_apply, hassign]
    dsimp only
    rw [Op.except_bind_apply, hd']
    dsimp only
    rw [Op.bind_apply, hassign']
    dsimp only
    rw [Op.bind_apply, Op.modify_apply]
    exact h.setOwn (by rw [Store.frameSize_setSlot, hsize]) _
  · refine ((hread.2.setSlot _ _ _).setSlot _ _ _).operand ?_
    rw [Store.slot?_setSlot_of_ne fun he => (hapart he).1,
      Store.slot?_setSlot_of_ne fun he => (hapart he).2, hread.1]
  · refine Store.slot?_setSlot_self ?_ _
    rw [Store.frameSize_setSlot, hsize]
    exact Nat.lt_of_succ_lt h.room
  · rw [Store.slot?_setSlot_of_ne fun _ => Nat.succ_ne_self _]
    refine Store.slot?_setSlot_self ?_ _
    rw [hsize]
    exact h.room

/-- The loop comes to its end. -/
lemma Shaped.finish (h : P.Shaped p s) : ∃ s', p.finish P.frame P.node s = .ok () s' ∧
    s'.slot? P.frame P.slot = some (.bool false) ∧ s'.slot? P.frame (P.slot + 1) = some .nil := by
  refine ⟨(s.setSlot P.frame (P.slot + 1) .nil).setSlot P.frame P.slot (.bool false), ?_, ?_, ?_⟩
  · rw [Program.finish, Op.except_bind_apply, h.rangeSlot]
    dsimp only
    rw [Op.bind_apply, Op.modify_apply]
    exact h.setOwn (by rw [Store.frameSize_setSlot]) _
  · refine Store.slot?_setSlot_self ?_ _
    rw [Store.frameSize_setSlot]
    exact Nat.lt_of_succ_lt h.room
  · rw [Store.slot?_setSlot_of_ne fun _ => Nat.succ_ne_self _]
    exact Store.slot?_setSlot_self h.room _

/-- The loop asks the channel for one more value. -/
lemma Shaped.perform (h : P.Shaped p s) (hch : p.operand P.frame P.node 2 s = .ok (.chan P.channel))
    (hposition : s.slot? P.frame (P.slot + 1) = some .nil ∨
      ∃ k, s.slot? P.frame (P.slot + 1) = some (.int k)) :
    ∃ k, p.perform P.frame P.node s = .ok (.receive P.channel (.visit (.int k))) s := by
  obtain ⟨n, hn, hkind, -⟩ := h.node
  obtain ⟨owner, i, ⟨d, _, hd, -⟩, -, hsecond⟩ := h.destinations
  obtain ⟨d', hd'⟩ : ∃ d', p.child P.node 1 = .ok d' := by
    rcases hsecond with ⟨d', _, hd', -⟩ | ⟨_, _, ⟨d', _, hd', -⟩, -⟩
    · exact ⟨d', hd'⟩
    · exact ⟨d', hd'⟩
  obtain ⟨w, j, hw, hj⟩ : ∃ w j, s.slot? P.frame (P.slot + 1) = some w ∧
      sequencePosition w = .ok j := by
    rcases hposition with hnil | ⟨k, hk⟩
    · exact ⟨_, 0, hnil, rfl⟩
    · exact ⟨_, _, hk, rfl⟩
  refine ⟨saturate (j + 1), ?_⟩
  rw [Program.perform, Op.except_bind_apply, hn]
  dsimp only
  rw [hkind]
  change p.range P.frame P.node s = _
  rw [Program.range, Op.except_bind_apply, h.rangeSlot]
  dsimp only
  rw [Op.except_bind_apply, hd]
  dsimp only
  rw [Op.except_bind_apply, hd']
  dsimp only
  rw [Op.look_bind_apply, hch]
  dsimp only
  rw [Op.bind_apply, Op.get_apply]
  dsimp only
  rw [hw]
  dsimp only
  rw [pure_bind, Op.except_bind_apply, hj]
  dsimp only
  rw [Op.look_bind_apply]
  rfl

end Pipe

end Flowgraph
