import Mathlib.Algebra.Ring.Nat
import Mathlib.Tactic.Common
import Flowgraph.Proofs.Contents
import Flowgraph.Proofs.Upkeep.Operation

/-!
# Layouts

A layout assigns nodes to scopes: to the global scope, or to the scope of a declared function,
which lies in one other scope. A layout suits a program when the graph stays within scopes where
it should, and when all slots fit the frames of the scopes that they lie in. This can be
decided.
-/

namespace Flowgraph

/-- The global scope, or the scope of a declared function. -/
abbrev Scope := Option NodeId

/-- The scope of every node, and for every function the scope that its own lies in. -/
structure Layout where
  scope : NodeId → Scope
  parent : NodeId → Scope

/-- The scope a number of levels out. A scope is as deep as there are levels. -/
def Layout.enclosing (L : Layout) : Scope → Nat → Option Scope
  | S, 0 => some S
  | none, _ + 1 => none
  | some decl, l + 1 => L.enclosing (L.parent decl) l

namespace Program

/-- The size of the frames of a scope. -/
def scopeSize (p : Program) : Scope → Nat
  | none => p.graph.globals
  | some decl =>
    match p.definition decl with
    | .ok d => d.frameSize
    | .error _ => 0

/-- How many values a node denotes. -/
def valueCount (p : Program) (id : NodeId) : Nat :=
  match p.node id with
  | .ok n => if n.slot.isSome then max 1 n.width else 1
  | .error _ => 0

/-- The constants of a program are those of its nodes. -/
def Loaded (p : Program) : Prop :=
  ∀ id n, p.node id = .ok n → n.constant p.natives id = .ok (p.constant? id)

end Program

/-- The function that a node refers to. -/
def Node.reference? (n : Node) : Option NodeId :=
  match n.payload with
  | some (.func decl) => some decl
  | _ => none

/-! ### Layouts that suit a program -/

/-- A node stays within the scopes of a layout, and its slots fit their frames. -/
structure Layout.SuitsAt (L : Layout) (p : Program) (id : NodeId) (n : Node) : Prop where
  /-- Control stays in a scope. -/
  next : ∀ t ∈ n.next, L.scope t = L.scope id
  otherwise : ∀ t ∈ n.otherwise, L.scope t = L.scope id
  /-- Operations touch nodes of their own scope. -/
  operand : ∀ c ∈ p.touched id n, L.scope c = L.scope id
  /-- Declarations that are operands are those of top-level functions. -/
  declaration : ∀ c ∈ p.touched id n, ∀ m ∈ p.graph.node? c, m.kind = .funcDecl →
    L.parent c = none
  /-- A closure is made in the scope that its function lies in. -/
  literal : n.kind = .funcLit → ∀ decl ∈ n.reference?,
    n.slot.isSome ∧ L.parent decl = L.scope id
  /-- All other references are to top-level functions. -/
  reference : n.kind ≠ .funcLit → ∀ decl ∈ n.reference?, L.parent decl = none
  /-- No node lies deeper than its scope, and its slots fit the frames that they lie in. -/
  slots : ∃ S, S ∈ L.enclosing (L.scope id) n.level ∧
    ∀ slot ∈ n.slot, slot + max 1 n.width ≤ p.scopeSize S
  /-- Whatever is spread over destinations fits as well. -/
  spread : n.kind = .assignSpread → ∀ source ∈ n.children.getLast?, ∀ m ∈ p.graph.node? source,
    ∀ slot ∈ m.slot, ∀ S ∈ L.enclosing (L.scope source) m.level,
      slot + n.children.dropLast.length ≤ p.scopeSize S
  /-- A loop has a slot for its position. -/
  position : n.kind = .range → ∀ slot ∈ n.slot, slot + 2 ≤ p.scopeSize (L.scope id)
  /-- Operations have their own slots in the current frame. -/
  level : n.kind.isStructural = false → n.level = 0
  /-- As many values as a return leaves fit the frame. -/
  returned : n.kind = .ret → (n.children.map p.valueCount).sum ≤ p.scopeSize (L.scope id)
  /-- No call links to its caller. -/
  unforked : n.kind = .call ∨ n.kind = .spawn → n.isFork = false
  /-- The body of a function lies in its scope. -/
  entry : ∀ d ∈ n.definition?, ∀ e ∈ d.entry, L.scope e = some id
  /-- The receiver, the parameters and the results of a function fit its frame. -/
  receiver : ∀ d ∈ n.definition?, ∀ slot ∈ d.receiver, slot < d.frameSize
  params : ∀ d ∈ n.definition?, ∀ slot ∈ d.params, slot < d.frameSize
  results : ∀ d ∈ n.definition?, d.results ≤ d.frameSize

/-- A layout suits a program when every node is as it should be. -/
def Layout.Suits (L : Layout) (p : Program) : Prop :=
  ∀ id n, p.node id = .ok n → L.SuitsAt p id n

namespace Program

variable {p : Program}

lemma definition_eq_ok {decl : NodeId} {d : FuncDef} (h : p.definition decl = .ok d) :
    ∃ n, p.node decl = .ok n ∧ n.definition? = some d := by
  simp only [definition] at h
  cases hn : p.node decl with
  | error e =>
    rw [hn] at h
    cases h
  | ok n =>
    refine ⟨n, rfl, ?_⟩
    simp only [hn, bind, Except.bind] at h
    cases hd : n.definition? with
    | none =>
      simp [hd] at h
    | some d' =>
      rw [hd] at h
      cases h
      rfl

end Program

namespace Layout

instance (L : Layout) (p : Program) (id : NodeId) (n : Node) : Decidable (L.SuitsAt p id n) :=
  decidable_of_iff
    ((∀ t ∈ n.next, L.scope t = L.scope id) ∧ (∀ t ∈ n.otherwise, L.scope t = L.scope id) ∧
      (∀ c ∈ p.touched id n, L.scope c = L.scope id) ∧
      (∀ c ∈ p.touched id n, ∀ m ∈ p.graph.node? c, m.kind = .funcDecl → L.parent c = none) ∧
      (n.kind = .funcLit → ∀ decl ∈ n.reference?,
        n.slot.isSome ∧ L.parent decl = L.scope id) ∧
      (n.kind ≠ .funcLit → ∀ decl ∈ n.reference?, L.parent decl = none) ∧
      (∃ S, S ∈ L.enclosing (L.scope id) n.level ∧
        ∀ slot ∈ n.slot, slot + max 1 n.width ≤ p.scopeSize S) ∧
      (n.kind = .assignSpread → ∀ source ∈ n.children.getLast?, ∀ m ∈ p.graph.node? source,
        ∀ slot ∈ m.slot, ∀ S ∈ L.enclosing (L.scope source) m.level,
          slot + n.children.dropLast.length ≤ p.scopeSize S) ∧
      (n.kind = .range → ∀ slot ∈ n.slot, slot + 2 ≤ p.scopeSize (L.scope id)) ∧
      (n.kind.isStructural = false → n.level = 0) ∧
      (n.kind = .ret → (n.children.map p.valueCount).sum ≤ p.scopeSize (L.scope id)) ∧
      (n.kind = .call ∨ n.kind = .spawn → n.isFork = false) ∧
      (∀ d ∈ n.definition?, ∀ e ∈ d.entry, L.scope e = some id) ∧
      (∀ d ∈ n.definition?, ∀ slot ∈ d.receiver, slot < d.frameSize) ∧
      (∀ d ∈ n.definition?, ∀ slot ∈ d.params, slot < d.frameSize) ∧
      ∀ d ∈ n.definition?, d.results ≤ d.frameSize)
    ⟨fun ⟨h₁, h₂, h₃, h₄, h₅, h₆, h₇, h₈, h₉, h₁₀, h₁₁, h₁₂, h₁₃, h₁₄, h₁₅, h₁₆⟩ =>
      ⟨h₁, h₂, h₃, h₄, h₅, h₆, h₇, h₈, h₉, h₁₀, h₁₁, h₁₂, h₁₃, h₁₄, h₁₅, h₁₆⟩,
    fun h => ⟨h.next, h.otherwise, h.operand, h.declaration, h.literal, h.reference, h.slots,
      h.spread, h.position, h.level, h.returned, h.unforked, h.entry, h.receiver, h.params,
      h.results⟩⟩

/-- Whether a layout suits a program can be decided node by node. -/
instance (L : Layout) (p : Program) : Decidable (L.Suits p) :=
  decidable_of_iff (∀ e ∈ p.graph.entries, L.SuitsAt p e.1 e.2)
    ⟨fun h id n hn => h (id, n) (Program.node_eq_ok_iff_mem.mp hn),
    fun h e he => h e.1 e.2 (Program.node_eq_ok_iff_mem.mpr he)⟩

variable {L : Layout} {p : Program}

/-- What suits at the declaration of a function. -/
lemma Suits.definition (h : L.Suits p) {decl : NodeId} {d : FuncDef}
    (hd : p.definition decl = .ok d) :
    (∀ e ∈ d.entry, L.scope e = some decl) ∧ (∀ slot ∈ d.receiver, slot < d.frameSize) ∧
      (∀ slot ∈ d.params, slot < d.frameSize) ∧ d.results ≤ d.frameSize := by
  obtain ⟨n, hn, hdef⟩ := Program.definition_eq_ok hd
  have hat := h decl n hn
  exact ⟨hat.entry d hdef, hat.receiver d hdef, hat.params d hdef, hat.results d hdef⟩

end Layout

/-! ### Constants of loaded programs -/

lemma getElem?_of_mapM_ok {α β ε : Type} {f : α → Except ε β} {l : List α} {l' : List β}
    (h : l.mapM f = .ok l') {i : Nat} {a : α} (ha : l[i]? = some a) :
    ∃ b, f a = .ok b ∧ l'[i]? = some b := by
  induction l generalizing l' i with
  | nil => cases ha
  | cons x l ih =>
    rw [List.mapM_cons] at h
    cases hx : f x with
    | error e =>
      rw [hx] at h
      cases h
    | ok b =>
      cases hl : l.mapM f with
      | error e =>
        rw [hx, hl] at h
        cases h
      | ok bs =>
        rw [hx, hl] at h
        cases h
        cases i with
        | zero =>
          cases ha
          exact ⟨b, hx, rfl⟩
        | succ i => exact ih hl ha

lemma Program.loaded_of_load {graph : Graph} {natives : Registry} {config : Config}
    {p : Program} (h : Program.load graph natives config = .ok p) : p.Loaded := by
  simp only [Program.load] at h
  generalize hm : List.mapM (m := Except Fault) _ graph.entries = constants at h
  cases constants with
  | error e => cases h
  | ok constants =>
    cases h
    intro id n hn
    have hnode : graph.nodes[id.index]? = some n := node_eq_ok.mp hn
    have hentry : graph.entries[id.index]? = some (id, n) := by
      rw [Graph.entries, List.getElem?_map, List.getElem?_zipIdx, Array.getElem?_toList, hnode]
      simp only [Option.map_some, Nat.zero_add]
    obtain ⟨value, hv, hc⟩ := getElem?_of_mapM_ok hm hentry
    rw [constant?, List.getElem?_toArray, hc]
    exact hv

/-- Loading a graph takes the graph, the natives and the limits as they are. -/
lemma Program.exists_of_load {graph : Graph} {natives : Registry} {config : Config}
    {p : Program} (h : Program.load graph natives config = .ok p) :
    ∃ constants, p = { graph, natives, config, constants } := by
  simp only [Program.load] at h
  generalize List.mapM (m := Except Fault) _ graph.entries = constants at h
  cases constants with
  | error e => cases h
  | ok constants =>
    cases h
    exact ⟨_, rfl⟩

lemma Program.natives_of_load {graph : Graph} {natives : Registry} {config : Config}
    {p : Program} (h : Program.load graph natives config = .ok p) : p.natives = natives := by
  obtain ⟨constants, rfl⟩ := exists_of_load h
  rfl

lemma Program.config_of_load {graph : Graph} {natives : Registry} {config : Config}
    {p : Program} (h : Program.load graph natives config = .ok p) : p.config = config := by
  obtain ⟨constants, rfl⟩ := exists_of_load h
  rfl

/-- A machine that was loaded is about to run a program that was loaded. -/
lemma Machine.of_load {graph : Graph} {natives : Registry} {config : Config} {kept : Bool}
    {m : Machine} (h : Machine.load graph natives config kept = .ok m) :
    ∃ p, Program.load graph natives config = .ok p ∧ m = ofProgram p kept := by
  simp only [Machine.load] at h
  cases hs : checkSize graph.globals maxValues with
  | error e =>
    rw [hs] at h
    cases h
  | ok _ =>
    rw [hs] at h
    cases hp : Program.load graph natives config with
    | error f =>
      rw [hp] at h
      cases h
    | ok p =>
      rw [hp] at h
      cases h
      exact ⟨p, rfl, rfl⟩

end Flowgraph
