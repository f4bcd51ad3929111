import Mathlib.Data.Nat.Find
import Mathlib.Tactic.Common
import Flowgraph.Proofs.Building.Edits

/-!
# The parents of a built graph

However edits are mixed, every child has a parent that lists it. If no node is added with a parent
of its own, the parent of a node is the last node that was added with it among its children.
Numbers grow from children to parents, so climbing comes to an end.
-/

namespace Flowgraph

namespace Graph

variable {g g' : Graph} {a b c : NodeId} {n : Node} {e : Edit} {es : List Edit}

/-! ### Children have parents -/

/-- Every child has a parent, which lists it. -/
def Parented (g : Graph) : Prop :=
  ∀ a c, g.Lists a c → ∃ cs b, g.kin? c = some (cs, some b) ∧ g.Lists b c

/-- Only the places in the tree matter. -/
lemma Parented.congr (h : g.Parented) (hkin : ∀ c, g'.kin? c = g.kin? c) : g'.Parented := by
  have hlists : ∀ a c, g'.Lists a c ↔ g.Lists a c := fun a c => by
    rw [lists_iff, lists_iff, hkin]
  intro a c hac
  obtain ⟨cs, b, hc, hbc⟩ := h a c ((hlists a c).mp hac)
  exact ⟨cs, b, (hkin c).trans hc, (hlists b c).mpr hbc⟩

/-- A node is added: it becomes the parent of its children. -/
lemma Parented.addNode (h : g.Parented) (he : g.edit (.addNode n) = .ok g') : g'.Parented := by
  obtain ⟨-, hthere, hkin⟩ := kin?_addNode he
  have hold : ∀ c k, g.kin? c = some k → g'.kin? c =
      some (k.1, if c ∈ n.children then some ⟨g.nodes.size⟩ else k.2) := by
    intro c k hc
    obtain ⟨m, hm, -⟩ := Option.map_eq_some_iff.mp hc
    have hlt : c.index < g.nodes.size := (Array.getElem?_eq_some_iff.mp hm).1
    rw [hkin, if_neg (Nat.ne_of_lt hlt), hc]
    rfl
  have hnew : ∀ c ∈ n.children, g'.Lists ⟨g.nodes.size⟩ c :=
    fun c hc => lists_iff.mpr ⟨n.children, n.parent, by rw [hkin, if_pos rfl], hc⟩
  intro a c hac
  -- a child of the new node gets this as its parent, and all others keep theirs
  by_cases hc : c ∈ n.children
  · obtain ⟨m, hm⟩ : ∃ m, g.node? c = some m := ⟨_, Array.getElem?_eq_getElem (hthere c hc)⟩
    have hk : g.kin? c = some (m.children, m.parent) := by rw [kin?, hm]; rfl
    exact ⟨_, _, by rw [hold c _ hk, if_pos hc], hnew c hc⟩
  · obtain ⟨cs, parent, ha, hmem⟩ := lists_iff.mp hac
    rw [hkin] at ha
    by_cases hindex : a.index = g.nodes.size
    · rw [if_pos hindex] at ha
      cases ha
      exact absurd hmem hc
    · rw [if_neg hindex] at ha
      obtain ⟨k, hk, hcs⟩ := Option.map_eq_some_iff.mp ha
      obtain ⟨cs', b, hb, hbc⟩ := h a c (lists_iff.mpr ⟨k.1, k.2, hk, (Prod.mk.inj hcs).1 ▸ hmem⟩)
      obtain ⟨ds, q, hq, hcb⟩ := lists_iff.mp hbc
      exact ⟨cs', b, by rw [hold c _ hb, if_neg hc],
        lists_iff.mpr ⟨ds, _, hold b _ hq, hcb⟩⟩

lemma Parented.edit (h : g.Parented) (he : g.edit e = .ok g') : g'.Parented := by
  cases e with
  | addNode n => exact h.addNode he
  | addType | link | branch | chain | define | setGlobals =>
    exact h.congr (patches_of_edit rfl he).kin

lemma Parented.edits (h : g.Parented) (he : g.edits es = .ok g') : g'.Parented := by
  induction es generalizing g with
  | nil =>
    cases he
    exact h
  | cons e es ih =>
    rw [edits_cons] at he
    cases hone : g.edit e with
    | error _ =>
      rw [hone] at he
      cases he
    | ok g₁ =>
      rw [hone] at he
      exact ih (h.edit hone) he

/-- In whatever order a graph is built, its children have parents that list them. -/
theorem parented_of_build (h : Graph.build es = .ok g) : g.Parented := by
  refine Parented.edits (fun a c hac => ?_) h
  obtain ⟨n, hn, -⟩ := hac
  cases hn

/-- A child that one node only lists has this node as its parent. -/
theorem Parented.parent (h : g.Parented) (hac : g.Lists a c) (hone : ∀ b, g.Lists b c → b = a) :
    ∃ n, g.node? c = some n ∧ n.parent = some a := by
  obtain ⟨cs, b, hc, hbc⟩ := h a c hac
  obtain ⟨n, hn, he⟩ := Option.map_eq_some_iff.mp hc
  exact ⟨n, hn, by rw [← hone b hbc, ← (Prod.mk.inj he).2]⟩

/-! ### Adoption -/

/-- The node was added with `c` among its children. -/
def Adopts (es : List Edit) (a c : NodeId) : Prop :=
  ∃ n, (added es)[a.index]? = some n ∧ c ∈ n.children

/-- No node that was added later than `a` has `c` among its children, but `a` has. -/
def LastAdopts (es : List Edit) (a c : NodeId) : Prop :=
  Adopts es a c ∧ ∀ b, Adopts es b c → b.index ≤ a.index

lemma Adopts.index_lt (h : Adopts es a c) : a.index < (added es).length :=
  let ⟨_, hn, _⟩ := h
  (List.getElem?_eq_some_iff.mp hn).1

lemma adopts_congr {es' : List Edit} (h : added es' = added es) :
    Adopts es' a c ↔ Adopts es a c := by
  rw [Adopts, Adopts, h]

lemma lastAdopts_congr {es' : List Edit} (h : added es' = added es) :
    LastAdopts es' a c ↔ LastAdopts es a c := by
  simp only [LastAdopts, adopts_congr h]

lemma getElem?_addNode {i : Nat} {m : Node} : (added (es ++ [.addNode n]))[i]? = some m ↔
    (added es)[i]? = some m ∨ i = (added es).length ∧ m = n := by
  have hadded : added (es ++ [.addNode n]) = added es ++ [n] := by simp [Edit.added]
  rw [hadded]
  rcases Nat.lt_trichotomy i (added es).length with hlt | rfl | hgt
  · simp [List.getElem?_append_left hlt, Nat.ne_of_lt hlt]
  · simp [eq_comm]
  · rw [List.getElem?_eq_none (by rw [List.length_append, List.length_singleton]; exact hgt),
      List.getElem?_eq_none (Nat.le_of_lt hgt)]
    simp [Nat.ne_of_gt hgt]

lemma adopts_addNode : Adopts (es ++ [.addNode n]) a c ↔
    Adopts es a c ∨ a.index = (added es).length ∧ c ∈ n.children := by
  simp only [Adopts, getElem?_addNode, or_and_right, exists_or, and_assoc, exists_and_left,
    exists_eq_left]

/-- A node that is added is the last to adopt its children, and changes nothing for the others. -/
lemma lastAdopts_addNode : LastAdopts (es ++ [.addNode n]) a c ↔
    if c ∈ n.children then a = ⟨(added es).length⟩ else LastAdopts es a c := by
  split_ifs with hc
  · have hlast : ∀ b, Adopts (es ++ [.addNode n]) b c → b.index ≤ (added es).length := by
      intro b hb
      rcases adopts_addNode.mp hb with hb | ⟨hb, -⟩
      · exact Nat.le_of_lt hb.index_lt
      · exact Nat.le_of_eq hb
    have hnew : Adopts (es ++ [.addNode n]) ⟨(added es).length⟩ c :=
      adopts_addNode.mpr (.inr ⟨rfl, hc⟩)
    constructor
    · rintro ⟨ha, hmax⟩
      obtain ⟨i⟩ := a
      exact congrArg NodeId.mk (Nat.le_antisymm (hlast _ ha) (hmax _ hnew))
    · rintro rfl
      exact ⟨hnew, hlast⟩
  · have hsame : ∀ b, Adopts (es ++ [.addNode n]) b c ↔ Adopts es b c := fun b =>
      adopts_addNode.trans (or_iff_left fun h => hc h.2)
    simp only [LastAdopts, hsame]

/-! ### The invariant of building -/

/-- The tree of the graph is the one that the added nodes' children give. -/
structure Traced (es : List Edit) (g : Graph) : Prop where
  children : ∀ c k, g.kin? c = some k → (added es)[c.index]?.map Node.children = some k.1
  parent : ∀ c k, g.kin? c = some k → ∀ a, k.2 = some a ↔ LastAdopts es a c
  below : ∀ a c, Adopts es a c → c.index < a.index

lemma kin?_isSome : (g.kin? c).isSome ↔ c.index < g.nodes.size := by
  rw [kin?, Option.isSome_map, node?, isSome_getElem?]

lemma Traced.patch (h : Traced es g) (hadds : e.added = []) (he : g.edit e = .ok g') :
    Traced (es ++ [e]) g' := by
  have hp := patches_of_edit hadds he
  have hadded : added (es ++ [e]) = added es := by simp [hadds]
  refine ⟨fun c k hk => ?_, fun c k hk a => ?_, fun a c hac => ?_⟩
  · rw [hadded]
    exact h.children c k (hp.kin c ▸ hk)
  · rw [lastAdopts_congr hadded]
    exact h.parent c k (hp.kin c ▸ hk) a
  · exact h.below a c ((adopts_congr hadded).mp hac)

lemma Traced.addNode (h : Traced es g) (hsize : g.nodes.size = (added es).length)
    (hn : n.parent = none) (he : g.edit (.addNode n) = .ok g') :
    Traced (es ++ [.addNode n]) g' := by
  obtain ⟨-, hthere, hkin⟩ := kin?_addNode he
  have hadded : added (es ++ [.addNode n]) = added es ++ [n] := by simp [Edit.added]
  have hchild : ∀ c ∈ n.children, c.index < (added es).length := hsize ▸ hthere
  refine ⟨fun c k hk => ?_, fun c k hk a => ?_, fun a c hac => ?_⟩
  · rw [hkin] at hk
    by_cases hc : c.index = g.nodes.size
    · rw [if_pos hc] at hk
      cases hk
      rw [hadded, hc, hsize, List.getElem?_concat_length]
      rfl
    · rw [if_neg hc] at hk
      obtain ⟨k', hk', rfl⟩ := Option.map_eq_some_iff.mp hk
      rw [hadded, List.getElem?_append_left (hsize ▸ kin?_isSome.mp (hk' ▸ rfl))]
      exact h.children c k' hk'
  · rw [hkin] at hk
    rw [lastAdopts_addNode]
    by_cases hc : c.index = g.nodes.size
    · -- nothing that was added before can list the new node, nor does it list itself
      rw [if_pos hc] at hk
      cases hk
      have hself : c ∉ n.children := fun h' => Nat.lt_irrefl _ (hc ▸ hthere c h')
      have hnone : ¬LastAdopts es a c := fun h' =>
        Nat.lt_asymm (h.below a c h'.1) (hc ▸ hsize ▸ h'.1.index_lt)
      rw [if_neg hself, hn]
      exact iff_of_false nofun hnone
    · rw [if_neg hc] at hk
      obtain ⟨k', hk', rfl⟩ := Option.map_eq_some_iff.mp hk
      split_ifs
      · rw [Option.some_inj, hsize, eq_comm]
      · exact h.parent c k' hk' a
  · rcases adopts_addNode.mp hac with hac | ⟨ha, hc⟩
    · exact h.below a c hac
    · exact ha ▸ hchild c hc

lemma Traced.edit (h : Traced es g) (hsize : g.nodes.size = (added es).length)
    (hpreset : ∀ n ∈ e.added, n.parent = none) (he : g.edit e = .ok g') :
    Traced (es ++ [e]) g' := by
  cases e with
  | addNode n => exact h.addNode hsize (hpreset n (List.mem_singleton_self n)) he
  | addType | link | branch | chain | define | setGlobals => exact h.patch rfl he

/-- By induction over the edits, from the first to the last. -/
theorem traced_of_build (hpreset : ∀ n ∈ added es, n.parent = none) (h : build es = .ok g) :
    Traced es g := by
  induction es using List.reverseRecOn generalizing g with
  | nil =>
    cases h
    exact ⟨nofun, nofun, fun a c ⟨n, hn, _⟩ => nomatch hn⟩
  | append_singleton es e ih =>
    rw [added_append, added_singleton] at hpreset
    obtain ⟨g₁, hb, he⟩ := of_build_append h
    have hbefore := ih (fun n hn => hpreset n (List.mem_append_left _ hn)) hb
    exact hbefore.edit (size_of_build hb) (fun n hn => hpreset n (List.mem_append_right _ hn)) he

/-! ### Climbing -/

/-- The parent of a node. -/
def parent? (g : Graph) (c : NodeId) : Option NodeId := (g.node? c).bind Node.parent

/-- The node that is reached from `c` by so many steps to a parent. -/
def climb? (g : Graph) (c : NodeId) : Nat → Option NodeId
  | 0 => some c
  | k + 1 => (g.climb? c k).bind g.parent?

lemma Traced.lastAdopts (h : Traced es g) (hn : g.node? c = some n) :
    n.parent = some a ↔ LastAdopts es a c :=
  h.parent c (n.children, n.parent) (by rw [kin?, hn]; rfl) a

lemma Traced.parent?_lt (h : Traced es g) (hsize : g.nodes.size = (added es).length)
    (hc : g.parent? c = some a) :
    c.index < a.index ∧ a.index < g.nodes.size := by
  obtain ⟨n, hn, ha⟩ := Option.bind_eq_some_iff.mp hc
  have hlast := (h.lastAdopts hn).mp ha
  exact ⟨h.below a c hlast.1, hsize ▸ hlast.1.index_lt⟩

lemma Traced.climb?_le (h : Traced es g) (hsize : g.nodes.size = (added es).length)
    (hc : c.index < g.nodes.size) {k : Nat} (hk : g.climb? c k = some a) :
    c.index + k ≤ a.index ∧ a.index < g.nodes.size := by
  induction k generalizing a with
  | zero =>
    cases hk
    exact ⟨Nat.le_refl _, hc⟩
  | succ k ih =>
    obtain ⟨b, hb, ha⟩ := Option.bind_eq_some_iff.mp hk
    have hba := h.parent?_lt hsize ha
    exact ⟨Nat.lt_of_le_of_lt (ih hb).1 hba.1, hba.2⟩

/-- Each step leads to a node of a greater number, and there are only so many. -/
lemma Traced.climb?_none (h : Traced es g) (hsize : g.nodes.size = (added es).length)
    (hc : c.index < g.nodes.size) {k : Nat} (hk : g.nodes.size ≤ c.index + k) :
    g.climb? c k = none := by
  refine Option.eq_none_iff_forall_ne_some.mpr fun a ha => ?_
  have := h.climb?_le hsize hc ha
  omega

/-! ### Parents are exact -/

/-- The last one of the nodes that list `c` exists if there is any. -/
lemma exists_lastAdopts (h : Adopts es a c) : ∃ b, LastAdopts es b c := by
  classical
  let P : Nat → Prop := fun i => Adopts es ⟨i⟩ c
  have hbound : ∀ i, P i → i ≤ (added es).length := fun i hi => Nat.le_of_lt hi.index_lt
  refine ⟨⟨Nat.findGreatest P (added es).length⟩,
    Nat.findGreatest_spec (P := P) (hbound a.index h) h, fun b hb => ?_⟩
  exact Nat.le_findGreatest (hbound b.index hb) hb

/-- What the tree of a graph is after some edits, and what further edits make of it. -/
structure ExactParents (es : List Edit) (g : Graph) : Prop where
  /-- Nodes have the children that they were added with. -/
  children : ∀ c, (g.node? c).map Node.children = (added es)[c.index]?.map Node.children
  /-- The parent of a node is the one of greatest number that was added with it as a child. -/
  parent : ∀ c n, g.node? c = some n → ∀ a,
    n.parent = some a ↔ Adopts es a c ∧ ∀ b, Adopts es b c → b.index ≤ a.index
  /-- There is none if no node was added with it as a child. -/
  orphan : ∀ c n, g.node? c = some n → (n.parent = none ↔ ∀ a, ¬Adopts es a c)
  /-- A node has a greater number than any of its children. -/
  child : ∀ a c, Adopts es a c → c.index < a.index
  /-- In particular a node has a smaller number than its parent. -/
  above : ∀ c a, g.parent? c = some a → c.index < a.index ∧ a.index < g.nodes.size
  /-- From parent to parent one comes to an end. -/
  climb : ∀ c k, c.index < g.nodes.size → g.nodes.size ≤ c.index + k → g.climb? c k = none
  /-- A node cannot be added just if one of its children has not been added. -/
  adding : ∀ n, (∃ x, g.edit (.addNode n) = .error x) ↔
    ∃ c ∈ n.children, (added es).length ≤ c.index
  /-- Other edits only change the nodes that they name, and of these neither children nor
  parents. -/
  patch : ∀ e g', e.added = [] → g.edit e = .ok g' → Patches e.touched g g'

/-- Whatever the order of its edits, a graph has exact parents. -/
theorem exact_parents_of_build (hpreset : ∀ n ∈ added es, n.parent = none)
    (h : build es = .ok g) : ExactParents es g := by
  have ht := traced_of_build hpreset h
  have hsize := size_of_build h
  refine ⟨fun c => ?_, fun c n hn a => ht.lastAdopts hn, fun c n hn => ?_, ht.below,
    fun c a => ht.parent?_lt hsize, fun c k hc => ht.climb?_none hsize hc, fun n => ?_,
    fun e g' => patches_of_edit⟩
  · cases hn : g.node? c with
    | none =>
      have hlen : (added es).length ≤ c.index := hsize ▸ Array.getElem?_eq_none_iff.mp hn
      exact (congrArg (Option.map Node.children) (List.getElem?_eq_none hlen)).symm
    | some n => exact (ht.children c _ (by rw [kin?, hn]; rfl)).symm
  · rw [Option.eq_none_iff_forall_ne_some]
    refine ⟨fun hnone a ha => ?_, fun hnone a ha => hnone a ((ht.lastAdopts hn).mp ha).1⟩
    obtain ⟨b, hb⟩ := exists_lastAdopts ha
    exact hnone b ((ht.lastAdopts hn).mpr hb)
  · rw [edit_fails, hsize]
    rfl

/-- Edits in which the first node is listed three times by two nodes, and the second one by two
nodes, with patches and types in between. -/
def adoptingEdits : List Edit := [
  .addType .int,
  .addNode { kind := .ident, slot := some 0 },
  .addNode { kind := .binary .add, children := [⟨0⟩, ⟨0⟩], slot := some 1 },
  .link ⟨0⟩ ⟨1⟩,
  .addNode { kind := .binary .sub, children := [⟨1⟩, ⟨0⟩], slot := some 2 },
  .setGlobals 3,
  .chain [⟨0⟩, ⟨1⟩, ⟨2⟩],
  .addNode { kind := .funcDecl },
  .branch ⟨2⟩ (some ⟨1⟩) ⟨0⟩,
  .addNode { kind := .block, children := [⟨3⟩, ⟨1⟩] },
  .define ⟨3⟩ { name := "f", entry := some ⟨0⟩ }]

/-- The graph that these edits build. -/
def adopting : Graph := (build adoptingEdits).toOption.getD {}

/-- The parent of the first node is the second of the two that list it, that of the second node the
last. -/
theorem exact_parents_adopting : (∀ n ∈ added adoptingEdits, n.parent = none) ∧
    build adoptingEdits = .ok adopting ∧ ExactParents adoptingEdits adopting ∧
    adopting.climb? ⟨0⟩ 1 = some ⟨2⟩ ∧ adopting.climb? ⟨1⟩ 1 = some ⟨4⟩ := by
  have hpreset : ∀ n ∈ added adoptingEdits, n.parent = none := by
    simp [added, adoptingEdits, Edit.added]
  exact ⟨hpreset, rfl, exact_parents_of_build hpreset rfl, rfl, rfl⟩

end Graph

end Flowgraph
