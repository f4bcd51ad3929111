import Mathlib.Tactic.Common
import Flowgraph.Proofs.Assign.Reading
import Flowgraph.Proofs.Equality
import Flowgraph.Proofs.Pointers.Elements
import Flowgraph.Proofs.Building.Parents
import Flowgraph.Proofs.Walks

/-!
# Switches

The cases of a switch are tried one after the other. A walk leaves them at the first one that
matches, or behind the last one, and it has changed nothing but the slots of the cases it has tried.
-/

namespace Flowgraph

/-! ### Slots that are not read -/

/-- What is looked up in another store is the same if each part of the search that comes about finds
the same. -/
lemma Look.bind_congr_of_ok {α β : Type} {s t : Store} {first : Look α} {next : α → Look β}
    (h : first t = first s) (hnext : ∀ a, first s = .ok a → next a t = next a s) :
    (first >>= next) t = (first >>= next) s := by
  change (first t >>= fun a => next a t) = (first s >>= fun a => next a s)
  rw [h]
  cases ha : first s with
  | error e => rfl
  | ok a => exact hnext a ha

namespace Program

variable {p : Program} {s : Store} {f : FrameId} {id : NodeId}

/-- A node is not read from a certain slot. -/
def ReadsApart (p : Program) (s : Store) (f : FrameId) (id : NodeId) (l : Site) : Prop :=
  ∀ n owner i, p.node id = .ok n → ¬(n.kind = .basicLit ∨ n.kind = .funcDecl) → n.slot = some i →
    s.ancestor? f n.level = some owner → (owner, i) ≠ l

lemma ancestor?_setSlot (g h : FrameId) (i n : Nat) (v : Value) :
    (s.setSlot g i v).ancestor? h n = s.ancestor? h n :=
  (Store.Spares.refl (fun _ _ => True) s |>.setSlot trivial v).ancestor? h n

/-- What a node is read as does not depend on slots that it is not read from. -/
lemma ReadsApart.value {l : Site} (h : p.ReadsApart s f id l) (v : Value) :
    p.value f id (s.setSlot l.1 l.2 v) = p.value f id s := by
  refine Look.bind_congr_of_ok rfl fun n hn => ?_
  split_ifs with hk
  · rfl
  · have hframe : frameAt f n.level id (s.setSlot l.1 l.2 v) = frameAt f n.level id s := by
      rw [frameAt, frameAt, ancestor?_setSlot]
    refine Look.bind_congr_of_ok hframe fun owner howner => ?_
    cases hi : n.slot with
    | none => rfl
    | some i =>
      have howner' : s.ancestor? f n.level = some owner := by
        rw [frameAt] at howner
        cases ho : s.ancestor? f n.level with
        | none =>
          rw [ho] at howner
          cases howner
        | some g =>
          rw [ho] at howner
          exact congrArg some (Except.ok.inj howner)
      have hne := h n owner i hn hk hi howner'
      refine Look.read_congr ?_
      rw [Store.slot?_setSlot_of_ne fun hg hj => hne (Prod.ext hg hj)]
      cases s.slot? owner i <;> rfl

lemma ReadsApart.setSlot {l : Site} (h : p.ReadsApart s f id l) (g : FrameId) (i : Nat)
    (v : Value) : p.ReadsApart (s.setSlot g i v) f id l := by
  intro n owner j hn hk hj ho
  rw [ancestor?_setSlot] at ho
  exact h n owner j hn hk hj ho

end Program

/-! ### Cases -/

/-- A case of a switch: its node with the slot for the outcome, its expression if it has one, and
where a walk goes on when it matches. -/
structure Arm where
  node : NodeId
  slot : Nat
  guard : Option NodeId
  body : Option NodeId

namespace Arm

variable {p : Program} {f : FrameId} {s : Store} {governing : Value} {a : Arm}

/-- Where a walk through cases begins. If there is none, it is at the exit at once. -/
def entry (exit : NodeId) : List Arm → NodeId
  | [] => exit
  | a :: _ => a.node

/-- A case matches a value if its expression has an equal value, or if it has no expression. -/
def Matches (p : Program) (f : FrameId) (s : Store) (governing : Value) (a : Arm) : Prop :=
  ∀ e, a.guard = some e → ∃ v, p.value f e s = .ok v ∧ (v == governing) = true

end Arm

/-- A case belongs to a switch: it is in a clause of it. Neither the case nor the clause is a child
of any other node. -/
def Graph.HasCase (g : Graph) (switch : NodeId) (a : Arm) : Prop :=
  ∃ clause n, g.node? clause = some n ∧ n.kind = .caseClause ∧
    g.Lists clause a.node ∧ (∀ b, g.Lists b a.node → b = clause) ∧
    g.Lists switch clause ∧ ∀ b, g.Lists b clause → b = switch

namespace Program

variable {p : Program} {f : FrameId} {s : Store} {switch g exit : NodeId} {governing : Value}
  {a : Arm} {arms rest : List Arm}

/-- Cases are wired one after the other: each leads to its body when it matches, and to the next one
when it does not. The last one leads to the exit then. -/
inductive Wired (p : Program) (exit : NodeId) : List Arm → Prop
  | nil : Wired p exit []
  | cons {a : Arm} {rest : List Arm} {n : Node} (node : p.node a.node = .ok n)
      (kind : n.kind = .caseTest) (level : n.level = 0) (slot : n.slot = some a.slot)
      (guard : n.child? 0 = a.guard) (whenTrue : n.next = a.body)
      (whenFalse : n.otherwise = some (Arm.entry exit rest)) (later : Wired p exit rest) :
      Wired p exit (a :: rest)

/-- The switch that a case belongs to is found by way of parents. -/
lemma switchOf_eq {es : List Graph.Edit} (hbuilt : Graph.build es = .ok p.graph)
    (h : p.graph.HasCase switch a) : p.switchOf a.node = .ok switch := by
  obtain ⟨clause, -, -, -, hcase, honly, hclause, honly'⟩ := h
  have hparented := Graph.parented_of_build hbuilt
  obtain ⟨n, hn, hparent⟩ := hparented.parent hcase honly
  obtain ⟨c, hc, hparent'⟩ := hparented.parent hclause honly'
  rw [switchOf, node_eq_ok.mpr hn]
  simp only [bind, Except.bind, hparent, node_eq_ok.mpr hc, hparent']
  rfl

/-- Whether a case matches is found out. -/
lemma caseMatches_apply {n : Node} (hn : p.node a.node = .ok n) (hguard : n.child? 0 = a.guard)
    (hswitch : p.switchOf a.node = .ok switch)
    (hgoverning : p.operand f switch 0 s = .ok governing)
    (hresolve : ∀ e, a.guard = some e → ∃ v, p.value f e s = .ok v) :
    ∃ b, p.caseMatches f a.node s = .ok b ∧ (b = true ↔ a.Matches p f s governing) := by
  cases he : a.guard with
  | none =>
    refine ⟨true, (Look.bind_ok hn).trans ?_, iff_of_true rfl fun e he' => ?_⟩
    · rw [hguard, he]
      rfl
    · rw [he] at he'
      cases he'
  | some e =>
    obtain ⟨v, hv⟩ := hresolve e he
    refine ⟨governing == v, (Look.bind_ok hn).trans ?_, fun hb e' he' => ?_, fun hm => ?_⟩
    · rw [hguard, he]
      refine (Look.bind_ok hswitch).trans ((Look.bind_ok hgoverning).trans ?_)
      exact (Look.bind_ok hv).trans rfl
    · rw [he] at he'
      cases he'
      exact ⟨v, hv, BEq.symm hb⟩
    · obtain ⟨v', hv', hb⟩ := hm e he
      rw [hv] at hv'
      cases hv'
      exact BEq.symm hb

end Program

/-! ### Switches -/

namespace Machine

variable {m : Machine} {r : Route} {switch g exit : NodeId} {governing : Value} {a b : Arm}
  {arms rest before after : List Arm}

/-- A walk is about to enter a switch of a graph that was built. All expressions have values, and
the slots of the cases are there and are not what any expression is read from. -/
structure Switching (m : Machine) (r : Route) (switch g : NodeId) (governing : Value)
    (arms : List Arm) (exit : NodeId) : Prop where
  built : ∃ es, Graph.build es = .ok m.program.graph
  here : m.At r (some (Arm.entry exit arms))
  node : ∃ n, m.program.node switch = .ok n ∧ n.kind = .switch ∧ n.child? 0 = some g
  wired : m.program.Wired exit arms
  members : ∀ a ∈ arms, m.program.graph.HasCase switch a
  slots : ∀ a ∈ arms, a.slot < m.store.frameSize r.frame
  value : m.program.value r.frame g m.store = .ok governing
  resolve : ∀ a ∈ arms, ∀ e, a.guard = some e → ∃ v, m.program.value r.frame e m.store = .ok v
  apart : ∀ a ∈ arms, ∀ e, (e = g ∨ ∃ b ∈ arms, b.guard = some e) →
    m.program.ReadsApart m.store r.frame e (r.frame, a.slot)

/-- A case is tried: its slot gets the outcome, and the walk goes on as this says. -/
lemma Switching.test (h : m.Switching r switch g governing (a :: rest) exit) :
    ∃ b, (b = true ↔ a.Matches m.program r.frame m.store governing) ∧
      m.moved r.chain 2 = m.arrive r (m.store.setSlot r.frame a.slot (.bool b))
        (if b then a.body else some (Arm.entry exit rest)) := by
  obtain ⟨es, hbuilt⟩ := h.built
  obtain ⟨sn, hsn, -, hg⟩ := h.node
  have hwired := h.wired
  cases hwired with
  | cons hn hk hlevel hslot hguard htrue hfalse _ =>
    have hgoverning : m.program.operand r.frame switch 0 m.store = .ok governing := by
      rw [Program.operand_of_node hsn hg, h.value]
    obtain ⟨b, hb, hmatches⟩ := Program.caseMatches_apply hn hguard
      (Program.switchOf_eq hbuilt (h.members a List.mem_cons_self)) hgoverning
      (h.resolve a List.mem_cons_self)
    have hlt := h.slots a List.mem_cons_self
    refine ⟨b, hmatches, ?_⟩
    have hvar : m.program.Variable a.node a.slot 0 := ⟨_, hn, by rw [hk]; decide, hslot, hlevel⟩
    have hvalue := hvar.value_ok (Store.ancestor?_zero _ r.frame)
      (Store.slot?_setSlot_self hlt (.bool b))
    have hnext := Program.successor_of_bool hn hfalse hvalue
    rw [htrue] at hnext
    refine At.moved_two h.here ?_ hnext
    refine (Program.perform_of_node hn).trans ?_
    rw [hk]
    refine Program.completely_apply ?_
    rw [Program.caseTest, Op.look_bind_apply, hb]
    exact Program.setOwn_apply hn hslot hlt _

/-- When a case does not match, what comes next is a switch with the other cases. -/
lemma Switching.pass (h : m.Switching r switch g governing (a :: rest) exit) (v : Value) :
    (m.arrive r (m.store.setSlot r.frame a.slot v) (some (Arm.entry exit rest))).Switching r switch
      g governing rest exit where
  built := h.built
  here := h.here.arrive
  node := h.node
  wired := by
    have hwired := h.wired
    cases hwired with
    | cons _ _ _ _ _ _ _ hlater => exact hlater
  members b hb := h.members b (List.mem_cons_of_mem a hb)
  slots b hb := by
    rw [store_arrive, Store.frameSize_setSlot]
    exact h.slots b (List.mem_cons_of_mem a hb)
  value := ((h.apart a List.mem_cons_self g (.inl rfl)).value v).trans h.value
  resolve b hb e he := by
    obtain ⟨w, hw⟩ := h.resolve b (List.mem_cons_of_mem a hb) e he
    have hapart := h.apart a List.mem_cons_self e (.inr ⟨b, List.mem_cons_of_mem a hb, he⟩)
    exact ⟨w, (hapart.value v).trans hw⟩
  apart b hb e he := by
    refine (h.apart b (List.mem_cons_of_mem a hb) e ?_).setSlot r.frame a.slot v
    exact he.imp_right fun ⟨c, hc, hce⟩ => ⟨c, List.mem_cons_of_mem a hc, hce⟩

/-- Whether one of the other cases matches is the same after a case has been tried. -/
lemma Switching.matches_iff (h : m.Switching r switch g governing (a :: rest) exit) (hb : b ∈ rest)
    (v : Value) : b.Matches m.program r.frame (m.store.setSlot r.frame a.slot v) governing ↔
      b.Matches m.program r.frame m.store governing := by
  have hsame : ∀ e, b.guard = some e →
      m.program.value r.frame e (m.store.setSlot r.frame a.slot v) =
        m.program.value r.frame e m.store := fun e he =>
    (h.apart a List.mem_cons_self e (.inr ⟨b, List.mem_cons_of_mem a hb, he⟩)).value v
  refine forall₂_congr fun e he => ?_
  rw [hsame e he]

/-- Cases that do not match: their slots say so. -/
def missed (f : FrameId) (arms : List Arm) : List (Option Site × Value) :=
  arms.map fun a => (some (f, a.slot), .bool false)

/-- Cases that do not match are passed, up to the next case or to the exit. -/
lemma Switching.passes (h : m.Switching r switch g governing (before ++ after) exit)
    (hbefore : ∀ b ∈ before, ¬b.Matches m.program r.frame m.store governing) :
    m.moved r.chain (2 * before.length) = m.arrive r
        (m.store.writeAll (missed r.frame before)) (some (Arm.entry exit after)) ∧
      (m.arrive r (m.store.writeAll (missed r.frame before))
        (some (Arm.entry exit after))).Switching r switch g governing after exit ∧
      ∀ b ∈ after, (b.Matches m.program r.frame (m.store.writeAll (missed r.frame before)) governing ↔
        b.Matches m.program r.frame m.store governing) := by
  induction before generalizing m with
  | nil =>
    have hself : m.arrive r m.store (some (Arm.entry exit after)) = m := h.here.arrive_self
    exact ⟨hself.symm, hself.symm ▸ h, fun b _ => Iff.rfl⟩
  | cons a before ih =>
    obtain ⟨b, hb, hmoved⟩ := h.test
    have hfalse : b = false := by
      rw [← Bool.not_eq_true, hb]
      exact hbefore a List.mem_cons_self
    subst hfalse
    rw [if_neg Bool.false_ne_true] at hmoved
    have hmatches := fun b (hb : b ∈ before ++ after) => h.matches_iff hb (.bool false)
    obtain ⟨hpast, hswitching, hlater⟩ := ih (h.pass (.bool false)) fun b hb => by
      rw [program_arrive, store_arrive, hmatches b (List.mem_append_left after hb)]
      exact hbefore b (List.mem_cons_of_mem a hb)
    rw [arrive_arrive, store_arrive] at hpast hswitching
    refine ⟨?_, hswitching, fun b hb => (hlater b hb).trans ?_⟩
    · rw [List.length_cons, Nat.mul_succ, Nat.add_comm, moved_add, hmoved, hpast]
      rfl
    · exact hmatches b (List.mem_append_right before hb)

/-- What a switch does. -/
structure Switches (m : Machine) (r : Route) (governing : Value) (arms : List Arm) (exit : NodeId) :
    Prop where
  /-- The body of the first case that matches is reached. The slots of the cases before it say that
  they do not match, and its own slot says that it does. -/
  taken : ∀ before a after, arms = before ++ a :: after →
    (∀ b ∈ before, ¬b.Matches m.program r.frame m.store governing) →
    a.Matches m.program r.frame m.store governing →
    m.moved r.chain (2 * (before.length + 1)) = m.arrive r
      (m.store.writeAll (missed r.frame before ++ [(some (r.frame, a.slot), .bool true)])) a.body
  /-- If no case matches, the exit is reached, and the slots of all cases say so. -/
  left : (∀ a ∈ arms, ¬a.Matches m.program r.frame m.store governing) →
    m.moved r.chain (2 * arms.length) =
      m.arrive r (m.store.writeAll (missed r.frame arms)) (some exit)

/-- A switch is left at its first case that matches, or behind its last one, and nothing else
happens than that the slots of the cases that were tried tell their outcomes. -/
theorem switches (h : m.Switching r switch g governing arms exit) :
    m.Switches r governing arms exit where
  taken before a after harms hbefore ha := by
    subst harms
    obtain ⟨hpast, hswitching, hmatches⟩ := h.passes hbefore
    obtain ⟨b, hb, hmoved⟩ := hswitching.test
    have htrue : b = true := hb.mpr ((hmatches a List.mem_cons_self).mpr ha)
    subst htrue
    rw [if_pos rfl, arrive_arrive, store_arrive] at hmoved
    rw [Nat.mul_succ, moved_add, hpast, hmoved, Store.writeAll, Store.writeAll, List.foldl_append]
    rfl
  left hnone := by
    have hall : m.Switching r switch g governing (arms ++ []) exit := by rwa [List.append_nil]
    exact (hall.passes hnone).1

/-- The edits of a switch whose second case matches. Its clauses are added from the last to the
first, and its cases are wired before and after that. -/
def choosingEdits : List Graph.Edit := [
  .addNode { kind := .ident, slot := some 0 },
  .addNode { kind := .basicLit, payload := some (.literal (.int 1)) },
  .addNode { kind := .caseTest, children := [⟨1⟩], slot := some 1 },
  .addNode { kind := .basicLit, payload := some (.literal (.int 2)) },
  .addNode { kind := .caseTest, children := [⟨3⟩], slot := some 2 },
  .branch ⟨2⟩ (some ⟨8⟩) ⟨4⟩,
  .addNode { kind := .caseTest, slot := some 3 },
  .addNode { kind := .caseClause, children := [⟨5⟩] },
  .addNode { kind := .caseClause, children := [⟨4⟩] },
  .addNode { kind := .nop },
  .branch ⟨4⟩ (some ⟨8⟩) ⟨5⟩,
  .addNode { kind := .caseClause, children := [⟨2⟩] },
  .addNode { kind := .switch, children := [⟨0⟩, ⟨9⟩, ⟨7⟩, ⟨6⟩] },
  .addNode { kind := .nop },
  .branch ⟨5⟩ none ⟨11⟩]

def choosing : Machine where
  program := {
    graph := (Graph.build choosingEdits).toOption.getD {}
    constants := #[none, some (.int 1), none, some (.int 2), none, none, none, none, none, none,
      none, none]
    natives := .empty
    config := {} }
  store := { frames := #[⟨#[.int 2, .nil, .nil, .nil], none⟩] }
  chains := #[.atNode ⟨2⟩]

def choosingRoute : Route := ⟨⟨0⟩, none, ⟨globalFrame, ⟨2⟩, some ⟨2⟩, 0⟩, 0, []⟩

def choosingArms : List Arm :=
  [⟨⟨2⟩, 1, some ⟨1⟩, some ⟨8⟩⟩, ⟨⟨4⟩, 2, some ⟨3⟩, some ⟨8⟩⟩, ⟨⟨5⟩, 3, none, none⟩]

lemma build_choosing : Graph.build choosingEdits = .ok choosing.program.graph := rfl

lemma lists_choosing {b c : NodeId} (h : choosing.program.graph.Lists b c) :
    (b.index, c.index) ∈
      [(2, 1), (4, 3), (6, 5), (7, 4), (9, 2), (10, 0), (10, 9), (10, 7), (10, 6)] := by
  obtain ⟨n, hn, hc⟩ := h
  have hall : ∀ i < 12, ∀ c ∈ ((choosing.program.graph.nodes[i]?).map Node.children).getD [],
      (i, c.index) ∈
        [(2, 1), (4, 3), (6, 5), (7, 4), (9, 2), (10, 0), (10, 9), (10, 7), (10, 6)] := by
    decide
  have hlt : b.index < 12 := (Array.getElem?_eq_some_iff.mp hn).1
  refine hall b.index hlt c ?_
  rw [show choosing.program.graph.nodes[b.index]? = some n from hn]
  exact hc

/-- Each case is in a clause of its own. -/
lemma hasCase_choosing : ∀ a ∈ choosingArms, choosing.program.graph.HasCase ⟨10⟩ a := by
  have hone : ∀ c k, (∀ i, (i, c) ∈ [(2, 1), (4, 3), (6, 5), (7, 4), (9, 2), (10, 0), (10, 9),
      (10, 7), (10, 6)] → i = k) → ∀ b, choosing.program.graph.Lists b ⟨c⟩ → b = ⟨k⟩ := by
    intro c k hk b hb
    obtain ⟨i⟩ := b
    rw [hk i (lists_choosing hb)]
  intro a ha
  simp only [choosingArms, List.mem_cons, List.not_mem_nil, or_false] at ha
  rcases ha with rfl | rfl | rfl
  · exact ⟨⟨9⟩, _, rfl, rfl, ⟨_, rfl, by decide⟩, hone 2 9 (by simp), ⟨_, rfl, by decide⟩,
      hone 9 10 (by simp)⟩
  · exact ⟨⟨7⟩, _, rfl, rfl, ⟨_, rfl, by decide⟩, hone 4 7 (by simp), ⟨_, rfl, by decide⟩,
      hone 7 10 (by simp)⟩
  · exact ⟨⟨6⟩, _, rfl, rfl, ⟨_, rfl, by decide⟩, hone 5 6 (by simp), ⟨_, rfl, by decide⟩,
      hone 6 10 (by simp)⟩

lemma switching_choosing :
    choosing.Switching choosingRoute ⟨10⟩ ⟨0⟩ (.int 2) choosingArms ⟨11⟩ where
  built := ⟨choosingEdits, build_choosing⟩
  here := rfl
  node := ⟨_, rfl, rfl, rfl⟩
  wired := .cons rfl rfl rfl rfl rfl rfl rfl (.cons rfl rfl rfl rfl rfl rfl rfl
    (.cons rfl rfl rfl rfl rfl rfl rfl .nil))
  members := hasCase_choosing
  slots := by decide
  value := rfl
  resolve a ha e he := by
    simp only [choosingArms, List.mem_cons, List.not_mem_nil, or_false] at ha
    rcases ha with rfl | rfl | rfl <;> cases he
    · exact ⟨.int 1, rfl⟩
    · exact ⟨.int 2, rfl⟩
  apart a ha e he := by
    intro n owner i hn hk hi ho
    have hslot : 0 < a.slot := by
      simp only [choosingArms, List.mem_cons, List.not_mem_nil, or_false] at ha
      rcases ha with rfl | rfl | rfl <;> decide
    rcases he with rfl | ⟨b, hb, he⟩
    · cases hn
      cases hi
      exact fun heq => Nat.ne_of_lt hslot (Prod.mk.inj heq).2
    · -- the expressions of the cases are literals
      simp only [choosingArms, List.mem_cons, List.not_mem_nil, or_false] at hb
      rcases hb with rfl | rfl | rfl <;> cases he <;> cases hn <;> exact absurd (.inl rfl) hk

theorem switches_choosing :
    choosing.moved ⟨0⟩ 4 = choosing.arrive choosingRoute
      ((choosing.store.setSlot globalFrame 1 (.bool false)).setSlot globalFrame 2 (.bool true))
      (some ⟨8⟩) := by
  refine (switches switching_choosing).taken [⟨⟨2⟩, 1, some ⟨1⟩, some ⟨8⟩⟩] _ _ rfl ?_ ?_
  · intro b hb hm
    obtain ⟨v, hv, heq⟩ := hm ⟨1⟩ (by rw [List.mem_singleton.mp hb])
    cases hv
    cases heq
  · intro e he
    cases he
    exact ⟨.int 2, rfl, rfl⟩

end Machine

end Flowgraph
