import Mathlib.Tactic.Common
import Flowgraph.Proofs.Paths.Drilling
import Flowgraph.Proofs.Texts.Views
import Flowgraph.Proofs.Walks

/-!
# Ways into nested values

Programs drill into nested values in three ways: by a node with a sequence of indices, by the path
to the receiver of a method, and by nodes that take one index each. All come to the same, and where
they fail, they fail at the same step.
-/

namespace Flowgraph

variable {p : Program} {s t : Store} {f : FrameId} {root v w : Value} {path : List Nat}
  {source id : NodeId} {ids : List NodeId} {exit next : Option NodeId} {i k size : Nat} {e : Stop}

/-! ### Nodes that take one index each -/

namespace Program

/-- A node indexes what another one has, by a number that is written in the program. The element
goes to a slot of its own, which frames of that size have, and a walk goes on. -/
inductive Indexes (p : Program) (size : Nat) (source : NodeId) (i : Nat) (id : NodeId)
    (next : Option NodeId) : Prop
  | mk {n l : Node} {literal : NodeId} {number : Int64} {place : Nat} (node : p.node id = .ok n)
      (kind : n.kind = .index) (collection : n.child? 0 = some source)
      (index : n.child? 1 = some literal) (written : p.node literal = .ok l)
      (isLiteral : l.kind = .basicLit) (constant : p.constant? literal = some (.int number))
      (denotes : number.toInt = i) (slot : n.slot = some place) (level : n.level = 0)
      (lt : place < size) (next : n.next = next) (otherwise : n.otherwise = none)

/-- The node answers with what drilling one step further comes to. -/
lemma Indexes.answers (h : p.Indexes size source i id next) (hv : p.value f source s = .ok v)
    (htext : ∀ t, v ≠ .str t) : p.Answers f id s (Look.follow "index" v [i] s) := by
  obtain ⟨hn, hk, hcollection, hindex, hl, hlk, hconstant, hdenotes, -, -, -, -, -⟩ := h
  rename_i n l literal number place
  have hlt : i < 2 ^ 63 := by
    have hbound := number.toInt_lt
    omega
  have hnumber : number = saturate i :=
    Int64.toInt_inj.mp (hdenotes.trans (toInt_saturate hlt).symm)
  rw [hnumber] at hconstant
  rw [← Look.index_of_ne_text htext]
  refine answers_index hn hk ?_ ?_
  · rw [operand_of_node hn hcollection, hv]
  · rw [operand_of_node hn hindex, value_of_literal hl hlk hconstant]

/-- The element is found. The node has it from then on, and is left. -/
lemma Indexes.ok (h : p.Indexes (s.frameSize f) source i id next) (hv : p.value f source s = .ok v)
    (htext : ∀ t, v ≠ .str t) (hw : Look.follow "index" v [i] s = .ok w) :
    ∃ place, p.perform f id s = .ok .done (s.setSlot f place w) ∧
      p.successor f id (s.setSlot f place w) = .ok next ∧
      p.value f id (s.setSlot f place w) = .ok w := by
  have hanswers := h.answers hv htext
  obtain ⟨hn, hk, -, -, -, -, -, -, hslot, hlevel, hlt, hnext, ho⟩ := h
  rename_i n l literal number place
  have hvar : p.Variable id place 0 := ⟨n, hn, by rw [hk]; decide, hslot, hlevel⟩
  refine ⟨place, ?_, ?_, hvar.value_ok (Store.ancestor?_zero _ f) (Store.slot?_setSlot_self hlt w)⟩
  · rw [hw] at hanswers
    exact hanswers.trans (completely_apply (setOwn_apply hn hslot hlt w))
  · rw [successor_of_next hn ho, hnext]

/-- Nodes drill along a path, one after the other: each indexes what the one before has, and the
first what some other node has. -/
structure Drills (p : Program) (size : Nat) (source : NodeId) (path : List Nat) (ids : List NodeId)
    (exit : Option NodeId) : Prop where
  length : ids.length = path.length
  each : ∀ k i before id, path[k]? = some i → (source :: ids)[k]? = some before →
    ids[k]? = some id → p.Indexes size before i id (ids[k + 1]?.or exit)

end Program

/-! ### Walks -/

namespace Machine

variable {m : Machine} {r : Route}

/-- No text is indexed along a path: neither what it starts from, nor what it leads to on the
way. -/
def Textless (m : Machine) (root : Value) (path : List Nat) : Prop :=
  ∀ k < path.length, ∀ c, Look.follow "index" root (path.take k) m.store = .ok c → ∀ t, c ≠ .str t

/-- A walk is about to drill along a path: it has reached the first of the nodes that take one index
each, and the node before has the operand. -/
structure Drilling (m : Machine) (r : Route) (root : Value) (path : List Nat) (source : NodeId)
    (ids : List NodeId) (exit : Option NodeId) : Prop where
  here : m.At r (ids[0]?.or exit)
  nodes : m.program.Drills (m.store.frameSize r.frame) source path ids exit
  root : m.program.value r.frame source m.store = .ok root

/-- A walk has drilled so far, to a value: the node that was performed last has the value, and
nothing has changed but slots. -/
structure Drilled (m : Machine) (r : Route) (source : NodeId) (ids : List NodeId)
    (exit : Option NodeId) (k : Nat) (w : Value) (t : Store) : Prop where
  arrived : m.moved r.chain (2 * k) = m.arrive r t (ids[k]?.or exit)
  slots : t = { m.store with frames := t.frames }
  size : t.frameSize r.frame = m.store.frameSize r.frame
  held : ∃ last, (source :: ids)[k]? = some last ∧ m.program.value r.frame last t = .ok w

lemma follow_of_slots {op : String} {path : List Nat} (ht : t = { s with frames := t.frames }) :
    Look.follow op v path t = Look.follow op v path s := by
  induction path generalizing v with
  | nil => rfl
  | cons i path ih =>
    refine Look.bind_congr rfl fun b => Look.bind_congr ?_ fun w => ih
    rw [ht]
    rfl

/-- As long as elements are found, a walk goes from node to node. -/
lemma Drilling.drilled (h : m.Drilling r root path source ids exit) (htext : m.Textless root path)
    (hk : k ≤ path.length) (hw : Look.follow "index" root (path.take k) m.store = .ok w) :
    ∃ t, m.Drilled r source ids exit k w t := by
  induction k generalizing w with
  | zero =>
    cases hw
    exact ⟨m.store, h.here.arrive_self.symm, rfl, rfl, source, rfl, h.root⟩
  | succ k ih =>
    obtain ⟨i, hi⟩ : ∃ i, path[k]? = some i := ⟨_, List.getElem?_eq_getElem hk⟩
    obtain ⟨id, hid⟩ : ∃ id, ids[k]? = some id :=
      ⟨_, List.getElem?_eq_getElem (h.nodes.length.symm ▸ hk)⟩
    rw [List.take_add_one, hi, Option.toList_some, Look.follow_cut] at hw
    obtain ⟨c, hc, hw⟩ := Look.of_bind hw
    obtain ⟨t, harrived, hslots, hsize, last, hlast, hvalue⟩ := ih (Nat.le_of_succ_le hk) hc
    have hnode := h.nodes.each k i last id hi hlast hid
    rw [← hsize] at hnode
    rw [← follow_of_slots hslots] at hw
    obtain ⟨place, hperform, hnext, hheld⟩ := hnode.ok hvalue (htext k hk c hc) hw
    refine ⟨t.setSlot r.frame place w, ?_, ?_, ?_, id, hid, hheld⟩
    · have hat : (m.arrive r t (some id)).At r (some id) := h.here.arrive
      rw [hid, Option.some_or] at harrived
      rw [Nat.mul_succ, moved_add, harrived, hat.moved_two hperform hnext, arrive_arrive]
    · rw [hslots]
      rfl
    · rw [Store.frameSize_setSlot, hsize]

/-- Where an element is not found, the walk is stopped. -/
lemma Drilling.stopped (h : m.Drilling r root path source ids exit) (htext : m.Textless root path)
    (he : Look.FailsAt "index" root path k e m.store) :
    ∃ w t id, m.Drilled r source ids exit k w t ∧ ids[k]? = some id ∧
      m.moved r.chain (2 * k + 1) =
        (m.mapStore fun _ => t).setChain r.chain (stopChain (r.reached (some id)) e) := by
  obtain ⟨c, hc⟩ := he.before
  obtain ⟨i, hi⟩ : ∃ i, path[k]? = some i := ⟨_, List.getElem?_eq_getElem he.lt⟩
  obtain ⟨id, hid⟩ : ∃ id, ids[k]? = some id :=
    ⟨_, List.getElem?_eq_getElem (h.nodes.length.symm ▸ he.lt)⟩
  obtain ⟨t, hdrilled⟩ := h.drilled htext he.lt.le hc
  refine ⟨c, t, id, hdrilled, hid, ?_⟩
  obtain ⟨harrived, hslots, -, last, hlast, hvalue⟩ := hdrilled
  have hfails := he.after (k + 1) (Nat.lt_succ_self k)
  rw [List.take_add_one, hi, Option.toList_some, Look.follow_cut] at hfails
  have hstep : Look.follow "index" c [i] t = .error e := by
    rw [follow_of_slots hslots]
    exact (Look.bind_ok hc).symm.trans hfails
  have hanswers := (h.nodes.each k i last id hi hlast hid).answers hvalue (htext k he.lt c hc)
  rw [hstep] at hanswers
  rw [hid, Option.some_or] at harrived
  have hat : (m.arrive r t (some id)).At r (some id) := h.here.arrive
  rw [moved_add, harrived, moved_one, hat.step_error hanswers]
  simp only [arrive, setChain, mapStore, Array.setIfInBounds_setIfInBounds]

/-- All ways into a value along a path come to the same. -/
structure DrillsAlike (m : Machine) (root : Value) (path : List Nat) : Prop where
  /-- A node with a sequence of indices answers with what drilling comes to. -/
  sequence : ∀ f id n q qn, m.program.node id = .ok n → n.kind = .indexPath →
    m.program.operand f id 0 m.store = .ok root → m.program.child id 1 = .ok q →
    m.program.node q = .ok qn → qn.indices? = some path →
    m.program.Answers f id m.store (Look.follow "index sequence" root path m.store)
  /-- So is the receiver of a method found. -/
  promotion : ∀ f id, m.program.value f id m.store = .ok root →
    m.program.receiverValue f (some (id, path)) m.store =
      (Look.follow "field promotion" root path m.store).map some
  /-- If there is a value at the end of the path, it is found in all ways. -/
  found : ∀ w, Look.follow "index sequence" root path m.store = .ok w →
    Look.follow "field promotion" root path m.store = .ok w ∧
    ∀ r source ids exit, m.Drilling r root path source ids exit →
      ∃ t, m.Drilled r source ids exit path.length w t
  /-- If there is none, all ways fail at the same step and alike, apart from the names of the
  operations. -/
  failed : ∀ e, Look.follow "index sequence" root path m.store = .error e →
    ∃ k, Look.FailsAt "index sequence" root path k e m.store ∧
      Look.FailsAt "field promotion" root path k (e.under "field promotion") m.store ∧
      ∀ r source ids exit, m.Drilling r root path source ids exit →
        ∃ w t id, m.Drilled r source ids exit k w t ∧ ids[k]? = some id ∧
          m.moved r.chain (2 * k + 1) = (m.mapStore fun _ => t).setChain r.chain
            (stopChain (r.reached (some id)) (e.under "index"))
  /-- A path can be cut in two. -/
  cut : ∀ op front rest, path = front ++ rest → Look.follow op root path m.store =
    (Look.follow op root front m.store).bind fun w => Look.follow op w rest m.store

/-- Drilling into nested values comes to the same, in whichever way it is done. -/
theorem drillings_agree (htext : m.Textless root path) : m.DrillsAlike root path where
  sequence f id n q qn hn hk hroot hq hqn hpath := by
    refine Program.answers_of_eq hn (by rw [hk]; rfl) ?_
    rw [Program.indexPath, Op.except_bind_apply, hq]
    dsimp only
    rw [Op.except_bind_apply, hqn]
    dsimp only
    rw [hpath]
    dsimp only
    rw [Op.look_bind_apply, hroot]
    dsimp only
    rw [Op.look_bind_apply, Op.except_bind_apply]
  promotion f id hroot := by
    rw [Program.receiverValue_some]
    refine (Look.bind_ok hroot).trans ?_
    change (Look.follow "field promotion" root path m.store >>= fun w => .ok (some w)) = _
    cases Look.follow "field promotion" root path m.store <;> rfl
  found w hw := by
    refine ⟨Look.follow_ok_under hw _, fun r source ids exit h => h.drilled htext le_rfl ?_⟩
    rw [List.take_length]
    exact Look.follow_ok_under hw _
  failed e he := by
    obtain ⟨k, hk⟩ := Look.exists_failsAt he
    exact ⟨k, hk, hk.under _, fun r source ids exit h => h.stopped htext (hk.under _)⟩
  cut op front rest hpath := by
    rw [hpath, Look.follow_cut]
    rfl

/-- Two structs that hold each other. One walk goes round, and another one leaves it on the way. -/
def entwined : Machine where
  program := {
    graph := {
      globals := 3
      nodes := #[
        { kind := .index, children := [⟨1⟩, ⟨2⟩], slot := some 1, next := some ⟨3⟩ },
        { kind := .ident, slot := some 0 },
        { kind := .basicLit, payload := some (.literal (.int 1)) },
        { kind := .index, children := [⟨0⟩, ⟨2⟩], slot := some 2 },
        { kind := .index, children := [⟨1⟩, ⟨2⟩], slot := some 1, next := some ⟨5⟩ },
        { kind := .index, children := [⟨4⟩, ⟨6⟩], slot := some 2 },
        { kind := .basicLit, payload := some (.literal (.int 5)) }] }
    constants := #[none, none, some (.int 1), none, none, none, some (.int 5)]
    natives := .empty
    config := {} }
  store := {
    frames := #[⟨#[.struct ⟨0⟩, .nil, .nil], none⟩]
    blocks := #[#[.int 7, .struct ⟨1⟩], #[.int 8, .struct ⟨0⟩]] }
  chains := #[.atNode ⟨0⟩, .atNode ⟨4⟩]

def entwinedRoute (x : ChainId) (entry : NodeId) : Route :=
  ⟨x, none, ⟨globalFrame, entry, some entry, 0⟩, 0, []⟩

lemma drilling_entwined :
    entwined.Drilling (entwinedRoute ⟨0⟩ ⟨0⟩) (.struct ⟨0⟩) [1, 1] ⟨1⟩ [⟨0⟩, ⟨3⟩] none ∧
    entwined.Drilling (entwinedRoute ⟨1⟩ ⟨4⟩) (.struct ⟨0⟩) [1, 5] ⟨1⟩ [⟨4⟩, ⟨5⟩] none := by
  refine ⟨⟨rfl, ⟨rfl, ?_⟩, rfl⟩, ⟨rfl, ⟨rfl, ?_⟩, rfl⟩⟩
  all_goals
    intro k i before id hi hbefore hid
    have hk : k < 2 := (List.getElem?_eq_some_iff.mp hi).1
    interval_cases k <;> cases hi <;> cases hbefore <;> cases hid
    all_goals exact .mk rfl rfl rfl rfl rfl rfl rfl (by decide) rfl rfl (by decide) rfl rfl

lemma textless_entwined (i : Nat) : entwined.Textless (.struct ⟨0⟩) [1, i] := by
  intro k hk c hc t
  change k < 2 at hk
  have hone : Look.follow "index" (.struct ⟨0⟩) [1] entwined.store = .ok (.struct ⟨1⟩) := rfl
  interval_cases k
  · cases hc
    exact Value.noConfusion
  · cases hone.symm.trans hc
    exact Value.noConfusion

theorem drillings_agree_entwined :
    (∃ t, entwined.moved ⟨0⟩ 4 = entwined.arrive (entwinedRoute ⟨0⟩ ⟨0⟩) t none ∧
      entwined.program.value globalFrame ⟨3⟩ t = .ok (.struct ⟨0⟩)) ∧
    (entwined.moved ⟨1⟩ 3).chain? ⟨1⟩ =
      some (.exit (.atNode ⟨4⟩) (.error (.fault (.indexOutOfRange 5 2)))) := by
  obtain ⟨hround, haway⟩ := drilling_entwined
  constructor
  · obtain ⟨-, hfound⟩ := (drillings_agree (textless_entwined 1)).found (.struct ⟨0⟩) rfl
    obtain ⟨t, harrived, -, -, last, hlast, hheld⟩ := hfound _ _ _ _ hround
    cases hlast
    exact ⟨t, harrived, hheld⟩
  · obtain ⟨k, hk, -, hfailed⟩ :=
      (drillings_agree (textless_entwined 5)).failed (.fault (.indexOutOfRange 5 2)) rfl
    obtain ⟨w, t, id, -, -, hstopped⟩ := hfailed _ _ _ _ haway
    -- the first index is found, so it is the second one that fails
    have hone : k = 1 := by
      have hlt : k < 2 := hk.lt
      interval_cases k
      · cases hk.after 1 Nat.zero_lt_one
      · rfl
    subst hone
    exact (congrArg (fun m => m.chain? ⟨1⟩) hstopped).trans
      (chain?_setChain_self (m := entwined.mapStore fun _ => t) haway.here)

end Machine

end Flowgraph
