import Mathlib.Data.Finset.Card
import Mathlib.Logic.Relation
import Mathlib.Tactic.Common
import Flowgraph.Proofs.Closed.Panics

/-!
# Graphs that go forward

In a graph that goes forward, no node is its own successor, however indirectly, and no type holds
a value of its own. There are only so many nodes, so each has a rank that its successors are below,
and so has each type among those that it holds.
-/

namespace Flowgraph

/-! ### Ranks -/

/-- No steps of a relation lead back to where they began. -/
def Acyclic {α : Type} (r : α → α → Prop) : Prop := ∀ a, ¬Relation.TransGen r a a

lemma Acyclic.of_index {α : Type} {r : α → α → Prop} (index : α → Nat)
    (h : ∀ a b, r a b → index a < index b) : Acyclic r := by
  have hlt : ∀ {a b}, Relation.TransGen r a b → index a < index b := by
    intro a b hab
    induction hab with
    | single hab => exact h _ _ hab
    | tail _ hbc ih => exact Nat.lt_trans ih (h _ _ hbc)
  exact fun a ha => Nat.lt_irrefl _ (hlt ha)

/-- If steps begin only at finitely many places and never lead back, then each place has a rank, and
steps lead to lower ranks. -/
theorem Acyclic.exists_rank {α : Type} {r : α → α → Prop} (h : Acyclic r) (index : α → Nat)
    (hindex : index.Injective) {n : Nat} (hr : ∀ a b, r a b → index a < n) :
    ∃ rank : α → Nat, (∀ a, rank a ≤ n) ∧ ∀ a b, r a b → rank b < rank a := by
  classical
  -- the rank of a place is the number of places that steps lead to from there
  let reached (a : α) : Finset Nat :=
    (Finset.range n).filter fun i => ∃ b, index b = i ∧ Relation.ReflTransGen r a b
  refine ⟨fun a => (reached a).card, ?_, ?_⟩
  · intro a
    have hle := Finset.card_filter_le (Finset.range n)
      fun i => ∃ b, index b = i ∧ Relation.ReflTransGen r a b
    rwa [Finset.card_range] at hle
  · intro a b hab
    apply Finset.card_lt_card
    constructor
    · intro i hi
      obtain ⟨hlt, c, hc, hbc⟩ := Finset.mem_filter.mp hi
      exact Finset.mem_filter.mpr ⟨hlt, c, hc, .head hab hbc⟩
    · intro hsub
      have ha : index a ∈ reached a :=
        Finset.mem_filter.mpr ⟨Finset.mem_range.mpr (hr a b hab), a, rfl, .refl⟩
      obtain ⟨-, c, hc, hbc⟩ := Finset.mem_filter.mp (hsub ha)
      rw [hindex hc] at hbc
      exact h a (.head' hab hbc)

/-! ### Graphs -/

namespace Graph

/-- A node has an edge to another one. -/
def Succeeds (g : Graph) (a b : NodeId) : Prop :=
  ∃ n, g.node? a = some n ∧ (n.next = some b ∨ n.otherwise = some b)

/-- A type holds values of another one. -/
def Contains (g : Graph) (t u : TypeId) : Prop := ∃ ty, g.type? t = some ty ∧ u ∈ ty.parts

/-- The kinds of nodes that wait for others, go round in loops, print, or start tasks. -/
def restless : List Kind := [.receive, .send, .range, .println, .spawn]

/-- A graph whose code only goes forward. -/
structure Forward (g : Graph) : Prop where
  successors : Acyclic g.Succeeds
  types : Acyclic g.Contains
  kinds : ∀ n ∈ g.nodes, n.kind ∉ restless

variable {g : Graph}

/-- Code goes forward if all edges lead to later nodes, and types are made of earlier ones. -/
lemma forward_of_order
    (hnodes : ∀ i (hi : i < g.nodes.size), (∀ b ∈ g.nodes[i].next, i < b.index) ∧
      ∀ b ∈ g.nodes[i].otherwise, i < b.index)
    (htypes : ∀ i (hi : i < g.types.size), ∀ u ∈ g.types[i].parts, u.index < i)
    (hkinds : ∀ n ∈ g.nodes, n.kind ∉ restless) : g.Forward where
  successors := by
    apply Acyclic.of_index NodeId.index
    rintro a b ⟨n, hn, hnext⟩
    obtain ⟨hlt, rfl⟩ := Array.getElem?_eq_some_iff.mp hn
    exact hnext.elim ((hnodes a.index hlt).1 b) ((hnodes a.index hlt).2 b)
  types := by
    apply Acyclic.of_index fun t => g.types.size - t.index
    rintro t u ⟨ty, hty, hu⟩
    obtain ⟨hlt, rfl⟩ := Array.getElem?_eq_some_iff.mp hty
    have hearlier := htypes t.index hlt u hu
    omega
  kinds := hkinds

lemma Forward.exists_rank (h : g.Forward) : ∃ rank : NodeId → Nat,
    (∀ a, rank a ≤ g.nodes.size) ∧ ∀ a b, g.Succeeds a b → rank b < rank a := by
  refine h.successors.exists_rank NodeId.index (fun a b hab => ?_) fun a b hab => ?_
  · exact congrArg NodeId.mk hab
  · obtain ⟨n, hn, -⟩ := hab
    exact (Array.getElem?_eq_some_iff.mp hn).1

lemma Forward.exists_typeRank (h : g.Forward) : ∃ rank : TypeId → Nat,
    (∀ t, rank t ≤ g.types.size) ∧ ∀ t u, g.Contains t u → rank u < rank t := by
  refine h.types.exists_rank TypeId.index (fun t u htu => ?_) fun t u htu => ?_
  · exact congrArg TypeId.mk htu
  · obtain ⟨ty, hty, -⟩ := htu
    exact (Array.getElem?_eq_some_iff.mp hty).1

end Graph

/-! ### How programs without loops stop -/

/-- How a chain may end early if nothing is known of the references of its graph. -/
inductive Stop.Abrupt : Stop → Prop
  | proper {e : Stop} (h : e.Proper) : Abrupt e
  | outOfTable (e : OutOfTable) : Abrupt (.ofOutOfTable e)

lemma Stop.Abrupt.ne_endless {e : Stop} (h : e.Abrupt) : e ≠ .endless := by
  rcases h with ⟨⟨⟩⟩ | ⟨⟩ <;> simp [Stop.ofOutOfTable, Stop.tooLarge, Stop.capacityTooLarge]

/-- Whatever a program over a graph without loops refers to, it stops at once if it stops. -/
theorem Graph.Forward.charted {p : Program} (h : p.graph.Forward) :
    p.Charted (fun _ => True) (fun _ => True) Stop.Abrupt where
  fault f := .proper (.fault f)
  tooLarge := .proper .tooLarge
  capacityTooLarge := .proper .capacityTooLarge
  node id _ := by
    simp only [Program.node]
    cases p.graph.node id with
    | ok n => constructor <;> intros <;> trivial
    | error e => exact .outOfTable e
  type t _ := by
    simp only [Program.type]
    cases p.graph.type t with
    | ok ty => exact fun _ _ => trivial
    | error e => exact .outOfTable e
  zeroAt t _ := by
    obtain ⟨rank, hle, hlt⟩ := h.exists_typeRank
    refine Graph.stops_zeroAt (fun depth u => rank u < depth) (.proper .tooLarge) ?_ ?_
      (Nat.lt_succ_of_le (hle t))
    · intro u hu
      exact absurd hu (Nat.not_lt_zero _)
    · intro depth u hu
      cases hty : p.graph.type? u with
      | none =>
        simp only [type, hty]
        exact .outOfTable _
      | some ty =>
        simp only [type, hty]
        intro part hpart
        exact Nat.lt_of_lt_of_le (hlt u part ⟨ty, hty, hpart⟩) (Nat.le_of_lt_succ hu)

end Flowgraph
