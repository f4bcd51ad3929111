import Mathlib.Tactic.Common
import Flowgraph.Native.Standard
import Flowgraph.Proofs.Closed.Chains
import Flowgraph.Proofs.Depth.Nesting
import Flowgraph.Proofs.Scope.Layout

/-!
# Closed graphs do not panic

In a graph in which no reference leads outside, nothing that a program does ends in a panic: every
chain ends with results or with a fault, or never, unless it asks for more memory than there can be.
-/

namespace Flowgraph

/-! ### Closed graphs -/

namespace Graph

/-- A node of the graph. -/
def Has (g : Graph) (id : NodeId) : Prop := id.index < g.nodes.size

/-- A type of the graph. -/
def HasType (g : Graph) (t : TypeId) : Prop := t.index < g.types.size

instance (g : Graph) (id : NodeId) : Decidable (g.Has id) := inferInstanceAs (Decidable (_ < _))

instance (g : Graph) (t : TypeId) : Decidable (g.HasType t) :=
  inferInstanceAs (Decidable (_ < _))

/-- All nodes and types that the graph refers to are in the graph. -/
structure IdClosed (g : Graph) : Prop where
  children : ∀ n ∈ g.nodes, ∀ c ∈ n.children, g.Has c
  parents : ∀ n ∈ g.nodes, ∀ c ∈ n.parent, g.Has c
  successors : ∀ n ∈ g.nodes, (∀ c ∈ n.next, g.Has c) ∧ ∀ c ∈ n.otherwise, g.Has c
  functions : ∀ n ∈ g.nodes, ∀ decl ∈ n.reference?, g.Has decl
  entries : ∀ n ∈ g.nodes, ∀ d ∈ n.definition?, ∀ e ∈ d.entry, g.Has e
  types : ∀ n ∈ g.nodes, ∀ t ∈ n.type, g.HasType t
  components : ∀ ty ∈ g.types, ∀ t ∈ ty.inner, g.HasType t

end Graph

/-- How a chain may end early: with a fault, or because it asks for more memory than there can
be. -/
inductive Stop.Proper : Stop → Prop
  | fault (f : Fault) : Proper (.fault f)
  | tooLarge : Proper .tooLarge
  | capacityTooLarge : Proper .capacityTooLarge

namespace Program

variable {p : Program}

lemma exists_node {id : NodeId} (h : p.graph.Has id) :
    ∃ n, p.node id = .ok n ∧ n ∈ p.graph.nodes := by
  refine ⟨p.graph.nodes[id.index], ?_, Array.getElem_mem h⟩
  rw [node_eq_ok]
  exact Array.getElem?_eq_getElem h

lemma exists_type {t : TypeId} (h : p.graph.HasType t) :
    ∃ ty, p.graph.type t = .ok ty ∧ ty ∈ p.graph.types := by
  refine ⟨p.graph.types[t.index], ?_, Array.getElem_mem h⟩
  simp only [Graph.type, Graph.type?, Array.getElem?_eq_getElem h]

end Program

namespace Graph.IdClosed

variable {p : Program}

/-- A program over a closed graph stops with a fault, or asks for too much memory, or does not
come to its end. -/
lemma charted (h : p.graph.IdClosed) :
    p.Charted p.graph.Has p.graph.HasType fun e => e.Proper ∨ e = .endless where
  fault f := .inl (.fault f)
  tooLarge := .inl .tooLarge
  capacityTooLarge := .inl .capacityTooLarge
  node id hid := by
    obtain ⟨n, hn, hmem⟩ := Program.exists_node hid
    rw [hn]
    exact ⟨h.children n hmem, h.parents n hmem, (h.successors n hmem).1, (h.successors n hmem).2,
      h.types n hmem⟩
  type t ht := by
    obtain ⟨ty, hty, hmem⟩ := Program.exists_type ht
    rw [Program.type, hty]
    exact h.components ty hmem
  zeroAt t ht := by
    refine Graph.stops_zeroAt (fun _ => p.graph.HasType) (.inl .tooLarge) (fun _ _ => .inr rfl)
      (fun _ u hu => ?_) ht
    obtain ⟨ty, hty, hmem⟩ := Program.exists_type hu
    rw [hty]
    exact fun part hpart => h.components ty hmem part (ty.parts_subset_inner hpart)

/-- A program over a closed graph refers only to nodes of the graph. -/
lemma refers (h : p.graph.IdClosed) (hp : p.Loaded) : p.Refers p.graph.Has where
  constant id n hn := by
    have hmem := Program.mem_nodes hn
    have hconst := hp id n hn
    simp only [Node.constant] at hconst
    by_cases hd : n.kind = .funcDecl
    · rw [if_pos hd] at hconst
      rw [← Except.ok.inj hconst]
      intro decl env he
      cases he
      exact (Array.getElem?_eq_some_iff.mp (Program.node_eq_ok.mp hn)).1
    · rw [if_neg hd] at hconst
      split at hconst
      case h_1 l hl =>
        rw [← Except.ok.inj hconst]
        exact Value.names_plain fun _ _ => by cases l <;> exact Value.noConfusion
      case h_2 decl hpay =>
        rw [← Except.ok.inj hconst]
        intro decl' env he
        cases he
        exact h.functions n hmem decl (by rw [Node.reference?, hpay]; rfl)
      case h_3 name hname =>
        split_ifs at hconst
        rw [← Except.ok.inj hconst]
        exact Value.names_plain fun _ _ => Value.noConfusion
      case h_4 =>
        rw [← Except.ok.inj hconst]
        split_ifs <;> exact Value.names_plain fun _ _ => Value.noConfusion
  closure id n decl hn hpay :=
    h.functions n (Program.mem_nodes hn) decl (by rw [Node.reference?, hpay]; rfl)
  entry decl d e hd he := by
    simp only [Program.definition] at hd
    cases hn : p.node decl with
    | error e' => rw [hn] at hd; cases hd
    | ok n =>
      rw [hn] at hd
      cases hdef : n.definition? with
      | none => simp only [bind, Except.bind, hdef] at hd; cases hd
      | some d' =>
        simp only [bind, Except.bind, hdef] at hd
        cases hd
        exact h.entries n (Program.mem_nodes hn) d hdef e he

end Graph.IdClosed

/-! ### Natives that do not panic -/

/-- No native panics. -/
def Registry.Calm (r : Registry) : Prop :=
  ∀ e ∈ r.symbols, ∀ config s args text, e.2.run config s args ≠ .stop (.panic text)

lemma Registry.Calm.of_symbol? {r : Registry} (h : r.Calm) {name : String} {symbol : Symbol}
    (hname : r.symbol? name = some symbol) {config : Config} {s : Store} {args : List Value}
    {e : Stop} (hstop : symbol.run config s args = .stop e) : e.Proper ∨ e = .endless := by
  obtain ⟨entry, hmem, rfl⟩ := Option.map_eq_some_iff.mp hname
  cases e with
  | fault f => exact .inl (.fault f)
  | panic text => exact absurd hstop (h entry (List.mem_of_find?_eq_some hmem) config s args text)
  | endless => exact .inr rfl

lemma Registry.Calm.register {r : Registry} (h : r.Calm) {run : Native}
    (hrun : ∀ config s args text, run config s args ≠ .stop (.panic text)) (name : String)
    (type : Option TypeId) : (r.register name run type).Calm :=
  forall_register (P := fun run => ∀ config s args text, run config s args ≠ .stop (.panic text))
    h hrun name type

/-- The standard natives do not panic. -/
theorem calm_standard : Registry.standard.Calm := by
  have hempty : Registry.empty.Calm := fun e he => absurd he List.not_mem_nil
  have hline : ∀ config s args text, Native.printLine config s args ≠ .stop (.panic text) :=
    fun _ _ _ _ h => by cases h
  have hsprint : ∀ config s args text, Native.sprint config s args ≠ .stop (.panic text) :=
    fun _ _ _ _ h => by cases h
  have hitoa : ∀ config s args text, Native.itoa config s args ≠ .stop (.panic text) := by
    intro config s args text h
    simp only [Native.itoa] at h
    split at h <;> cases h
  have hupper : ∀ config s args text, Native.toUpper config s args ≠ .stop (.panic text) := by
    intro config s args text h
    simp only [Native.toUpper] at h
    split at h <;> cases h
  exact (((hempty.register hline "fmt.Println" none).register hsprint "fmt.Sprint" none).register
    hitoa "strconv.Itoa" none).register hupper "strings.ToUpper" none

/-- A program over a closed graph, with natives that neither panic nor name nodes that are not in
the graph. -/
structure Program.Closed (p : Program) : Prop where
  graph : p.graph.IdClosed
  loaded : p.Loaded
  calm : p.natives.Calm
  natives : p.natives.Names p.graph.Has

/-! ### Machines -/

namespace Machine

variable {m m' : Machine} {x : ChainId} {mv : Move} {c d : Chain} {e : Stop}

/-- Only functions of the graph are around, and no chain has come to an improper end. -/
structure Closed (m : Machine) : Prop where
  program : m.program.Closed
  fits : m.Fits
  store : m.store.Names m.program.graph.Has
  chains : ∀ x c, m.chain? x = some c → c.Names m.program.graph.Has
  stops : ∀ x c e, m.chain? x = some c → c.stop? = some e → Stop.Proper e
  faults : ∀ r ∈ m.launcher.faults, ∃ e, Stop.Proper e ∧ Stop.recorded? e = some r.2

namespace Closed

section Moves

variable (h : m.Closed)

include h

lemma charted : m.program.Charted m.program.graph.Has m.program.graph.HasType
    fun e => e.Proper ∨ e = .endless :=
  h.program.graph.charted

lemma refers : m.program.Refers m.program.graph.Has := h.program.graph.refers h.program.loaded

lemma hands : m.program.Hands m.store
    (Store.Keeping (Value.Names m.program.graph.Has) fun _ => True)
    (Value.Names m.program.graph.Has) (Activation.At m.program.graph.Has)
    (Activation.Begins m.program.graph.Has) :=
  h.refers.hands h.charted h.program.natives h.store

lemma bears (hc : m.chain? x = some c) : c.Bears (Value.Names m.program.graph.Has)
    (Activation.At m.program.graph.Has) (Activation.Begins m.program.graph.Has) :=
  Chain.names_iff.mp (h.chains x c hc)

/-- No move stops a chain with a panic. -/
lemma proper_of_raises {s : Store} (hr : m.Raises x mv e s) : e.Proper ∨ e = .endless := by
  cases hr with
  | alone hc hr =>
    refine h.charted.allows_of_raises (h.refers.names_of_store h.charted h.store)
      (h.chains _ _ hc).knows
      ?_ hr
    exact fun depth name args symbol _ hname hstop => h.program.calm.of_symbol? hname hstop
  | refused => exact .inl (.fault _)
  | dismissed => exact .inl (.fault _)

lemma stops_step (hd : (m.step mv).chain? x = some d) (hstop : d.stop? = some e) :
    e.Proper := by
  cases hc : m.chain? x with
  | none =>
    obtain ⟨y, c, task, callee, -, -, -, -, rfl⟩ := launched_of_step hc hd
    cases hstop
  | some c =>
    rcases raises_of_stop? hc hd hstop with hold | ⟨s, hr⟩
    · exact h.stops x c e hc hold
    · rcases h.proper_of_raises hr with hproper | rfl
      · exact hproper
      · -- what never comes to its end does not bring the chain to its end
        rw [step_of_raises hc hr, chain?_setChain_self (by exact hc)] at hd
        cases hd
        cases hstop

lemma faults_step (mv : Move) : ∀ r ∈ (m.step mv).launcher.faults,
    ∃ e, Stop.Proper e ∧ Stop.recorded? e = some r.2 := by
  intro r hr
  rcases m.step_cases mv with hm | ⟨id, c, step, -, -, -, hm⟩
  · rcases hm.faults r hr with hr | ⟨y, c, e, hc, hs, hrecorded⟩
    · exact h.faults r hr
    · exact ⟨e, h.stops y c e hc (by rw [Chain.stop?, hs]), hrecorded⟩
  · rw [hm, stepChain_eq] at hr
    cases hx : step m.store <;> rw [hx] at hr <;> exact h.faults r hr

theorem step (mv : Move) : (m.step mv).Closed where
  program := by rw [program_step]; exact h.program
  fits := h.fits.step mv
  store := by
    rw [program_step]
    exact (keeping_step h.hands h.fits (fun _ _ => h.bears) fun _ _ => trivial).1
  chains x d hd := by
    rw [program_step]
    exact Chain.names_iff.mpr (bears_step h.hands h.fits (fun _ _ => h.bears) hd)
  stops x d e hd hstop := h.stops_step hd hstop
  faults := h.faults_step mv

/-- A host may begin whatever involves only nodes of the graph. -/
lemma addChain (hc : c.Hosted) (hnames : c.Names m.program.graph.Has) :
    (m.addChain c).2.Closed where
  program := h.program
  fits := h.fits.addChain (fits_hosted hc)
  store := h.store
  chains x d hd := by
    rw [chain?_addChain_eq] at hd
    split_ifs at hd
    · cases hd
      exact hnames
    · exact h.chains x d hd
  stops x d e hd hstop := by
    rw [chain?_addChain_eq] at hd
    split_ifs at hd
    · cases hd
      cases hc <;> cases hstop
    · exact h.stops x d e hd hstop
  faults := h.faults

lemma reaches (hm : Reaches m m') : m'.Closed := by
  induction hm with
  | refl => exact h
  | step m mv _ ih => exact ih (h.step mv)

end Moves

end Closed

/-- What a machine can become while a host uses it with nothing but nodes of the graph: besides
beginning chains, the host may change the store and take the recorded faults. -/
inductive Arises (g : Graph) (start : Machine) : Machine → Prop
  | start : Arises g start start
  | move {m : Machine} (h : Arises g start m) (mv : Move) : Arises g start (m.step mv)
  | host {m : Machine} (h : Arises g start m) {c : Chain} (hc : c.Hosted) (hn : c.Names g.Has) :
    Arises g start (m.addChain c).2
  | change {m : Machine} (h : Arises g start m) {s : Store}
    (hs : m.store.Names g.Has → s.Names g.Has) : Arises g start { m with store := s }
  | takeFaults {m : Machine} (h : Arises g start m) : Arises g start m.takeFaults.2

/-- Nothing has ended in a panic, and nothing that a host begins will. -/
structure PanicFree (g : Graph) (m : Machine) : Prop where
  /-- No chain has come to its end early but with a fault, or because of too much memory. -/
  stops : ∀ x c e, m.chain? x = some c → c.stop? = some e → Stop.Proper e
  /-- What is recorded for tasks is what they came to their ends with. -/
  recorded : ∀ r ∈ m.launcher.faults, ∃ e, Stop.Proper e ∧ Stop.recorded? e = some r.2
  /-- When a step of the host has an answer, the answer is a result, or such an end. -/
  answers : ∀ fuel c o, c.Hosted → c.Names g.Has → (m.runChain fuel c).1 = some o →
    (∃ vs, o = .ok vs) ∨ ∃ e, o = .error e ∧ Stop.Proper e

lemma Closed.panicFree (h : m.Closed) : m.PanicFree m.program.graph where
  stops := h.stops
  recorded := h.faults
  answers fuel c o hc hnames ho := by
    cases o with
    | ok vs => exact .inl ⟨vs, rfl⟩
    | error e =>
      refine .inr ⟨e, rfl, ?_⟩
      have hreaches : Reaches (m.addChain c).2 (m.runChain fuel c).2 := reaches_drive _ _ _ _
      have hclosed := (h.addChain hc hnames).reaches hreaches
      obtain ⟨d, hd, houtcome⟩ := Option.bind_eq_some_iff.mp ho
      refine hclosed.stops _ d e hd ?_
      simp only [Chain.outcome?] at houtcome
      split at houtcome <;> cases houtcome
      case h_1 hs => rw [Chain.stop?, hs]

lemma Arises.reaches {g : Graph} {start : Machine} (h : Arises g start m) (hr : Reaches m m') :
    Arises g start m' := by
  induction hr with
  | refl => exact h
  | step m mv _ ih => exact ih (h.move mv)

lemma closed_ofProgram {p : Program} (hp : p.Closed) (kept : Bool) : (ofProgram p kept).Closed where
  program := hp
  fits x c hc := by simp [ofProgram, chain?] at hc
  store := holds_ofProgram (Value.names_plain fun _ _ => Value.noConfusion) p kept
  chains x c hc := by simp [ofProgram, chain?] at hc
  stops x c e hc := by simp [ofProgram, chain?] at hc
  faults r hr := absurd hr List.not_mem_nil

lemma Arises.closed {start : Machine} (hstart : start.Closed)
    (h : Arises start.program.graph start m) : m.program = start.program ∧ m.Closed := by
  induction h with
  | start => exact ⟨rfl, hstart⟩
  | move _ mv ih => exact ⟨(program_step _ mv).trans ih.1, ih.2.step mv⟩
  | host _ hc hn ih => exact ⟨ih.1, ih.2.addChain hc (by rw [ih.1]; exact hn)⟩
  | change _ hs ih =>
    obtain ⟨hprogram, h⟩ := ih
    rw [← hprogram] at hs
    exact ⟨hprogram, h.program, h.fits, hs h.store, h.chains, h.stops, h.faults⟩
  | takeFaults _ ih =>
    obtain ⟨hprogram, h⟩ := ih
    exact ⟨hprogram, h.program, h.fits, h.store, h.chains, h.stops,
      fun r hr => absurd hr List.not_mem_nil⟩

/-- Over a closed graph, no step of a host and no task ends in a panic, whatever the nodes of the
graph ask for and whichever values they meet. -/
theorem panicFree_of_arises {graph : Graph} {natives : Registry} {config : Config} {kept : Bool}
    {start m : Machine} (hload : Machine.load graph natives config kept = .ok start)
    (hg : graph.IdClosed) (hcalm : natives.Calm) (hnames : natives.Names graph.Has)
    (hm : Arises graph start m) : m.PanicFree graph := by
  obtain ⟨p, hp, rfl⟩ := Machine.of_load hload
  have hloaded := Program.loaded_of_load hp
  obtain ⟨constants, rfl⟩ := Program.exists_of_load hp
  have hstart := closed_ofProgram ⟨hg, hloaded, hcalm, hnames⟩ kept
  obtain ⟨hprogram, hclosed⟩ := Arises.closed hstart hm
  have hfree := hclosed.panicFree
  rwa [hprogram] at hfree

/-- A function whose only node has no operands. It is spawned as a task, and then it is called. -/
def mishaps : Graph where
  nodes := #[
    { kind := .funcDecl,
      payload := some (.definition { name := "mishap", frameSize := 1, entry := some ⟨1⟩ }) },
    { kind := .index, slot := some 0 },
    { kind := .ident, payload := some (.func ⟨0⟩) },
    { kind := .spawn, children := [⟨2⟩], next := some ⟨4⟩ },
    { kind := .call, children := [⟨2⟩] }]

theorem panicFree_mishaps : ∃ start, Machine.load mishaps .standard {} true = .ok start ∧
    mishaps.IdClosed ∧ Registry.standard.Calm ∧ Registry.standard.Names mishaps.Has ∧
    (start.exec 60 ⟨3⟩).2.PanicFree mishaps ∧
    (start.exec 60 ⟨3⟩).1 = some (.error (.malformed ⟨1⟩ .missingOperand)) := by
  have hclosed : mishaps.IdClosed :=
    ⟨by decide, by decide, by decide, by decide, by decide, by decide, by decide⟩
  refine ⟨_, rfl, hclosed, calm_standard, faithful_standard.names, ?_, rfl⟩
  refine @panicFree_of_arises mishaps .standard {} true _ _ rfl hclosed calm_standard
    faithful_standard.names ?_
  refine (Arises.host .start (.atNode ⟨3⟩) ⟨?_, trivial⟩).reaches (reaches_drive _ _ _ _)
  decide

end Machine

end Flowgraph
