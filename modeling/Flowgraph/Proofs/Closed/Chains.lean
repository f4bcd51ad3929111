import Mathlib.Tactic.Common
import Flowgraph.Proofs.Hands.Values
import Flowgraph.Proofs.Stops.Chains

/-!
# Known functions stay among themselves

Operations make function values only from constants, closures and what they read. So when all of
these are known functions, chains whose walks are at known nodes come to no others by themselves.
Natives may hand on functions too, so they are asked to name only known ones.
-/

namespace Flowgraph

variable {p : Program} {N : NodeId → Prop} {s : Store}

lemma Value.names_plain {v : Value} (h : ∀ decl env, v ≠ .func decl env) : v.Names N :=
  fun decl env hv => absurd hv (h decl env)

/-- The functions that a program refers to are known, and so are the nodes at which their bodies
start. -/
structure Program.Refers (p : Program) (N : NodeId → Prop) : Prop where
  constant : ∀ id n, p.node id = .ok n → ((p.constant? id).getD .nil).Names N
  closure : ∀ id n decl, p.node id = .ok n → n.payload = some (.func decl) → N decl
  entry : ∀ decl d e, p.definition decl = .ok d → d.entry = some e → N e

/-- All functions that are held in a store are known. -/
abbrev Store.Names (N : NodeId → Prop) (s : Store) : Prop := s.Holds (Value.Names N)

/-! ### What chains have at hand -/

/-- A bound call gets only known functions, and starts at a known node. -/
def Callee.Names (N : NodeId → Prop) : Callee → Prop
  | .declared a => ∀ e, a.entry = some e → N e
  | .native _ args => ∀ v ∈ args, v.Names N

/-- All functions that a stage has at hand are known. -/
def Stage.Names (N : NodeId → Prop) : Stage → Prop
  | .call callee receiver args =>
    callee.Names N ∧ (∀ v, receiver = some v → v.Names N) ∧ ∀ v ∈ args, v.Names N
  | .start _ callee | .spawn callee | .launch _ callee => callee.Names N
  | .deliver vs => ∀ v ∈ vs, v.Names N
  | .send _ v _ => v.Names N
  | .receive _ purpose _ => purpose.Holds (Value.Names N)
  | .received purpose v => purpose.Holds (Value.Names N) ∧ ∀ w, v = some w → w.Names N
  | .exit (.ok vs) | .leave (.ok vs) | .ended (.ok vs) => ∀ v ∈ vs, v.Names N
  | _ => True

/-- A chain is at known nodes, and has only known functions at hand. -/
structure Chain.Names (N : NodeId → Prop) (c : Chain) : Prop where
  walks : ∀ w ∈ c.walks, ∀ id, w.node = some id → N id
  stage : c.stage.Names N

/-- A reply involves only known functions. -/
def Reply.Names (N : NodeId → Prop) : Reply → Prop
  | results vs => ∀ v ∈ vs, v.Names N
  | print _ vs => ∀ v ∈ vs, v.Names N
  | stop _ => True
  | call f vs => f.Names N ∧ ∀ v ∈ vs, v.Names N

/-- When a native meets only known functions, its replies involve no others. -/
def Registry.Names (N : NodeId → Prop) (r : Registry) : Prop :=
  ∀ name symbol, r.symbol? name = some symbol → ∀ config s args, Store.Names N s →
    (∀ v ∈ args, v.Names N) → (symbol.run config s args).Names N

/-- An activation starts at a known node. -/
def Activation.Begins (N : NodeId → Prop) (a : Activation) : Prop := ∀ e, a.entry = some e → N e

/-- A walk is at a known node, or has come to its end. -/
def Activation.At (N : NodeId → Prop) (_ : Activation) (node : Option NodeId) : Prop :=
  ∀ id, node = some id → N id

section Bears

open Activation

lemma Callee.names_iff {callee : Callee} :
    callee.Names N ↔ callee.Bears (Value.Names N) (Begins N) := by
  cases callee <;> exact Iff.rfl

lemma Stage.names_iff {stage : Stage} :
    stage.Names N ↔ stage.Bears (Value.Names N) (Begins N) := by
  cases stage with
  | start depth callee | spawn callee | launch t callee => exact Callee.names_iff
  | exit outcome | leave outcome | ended outcome => cases outcome <;> exact Iff.rfl
  | _ => exact Iff.rfl

lemma Chain.names_iff {c : Chain} :
    c.Names N ↔ c.Bears (Value.Names N) (Activation.At N) (Begins N) :=
  ⟨fun h => ⟨h.walks, Stage.names_iff.mp h.stage⟩,
    fun h => ⟨h.walks, Stage.names_iff.mpr h.stage⟩⟩

lemma Reply.names_iff {reply : Reply} : reply.Names N ↔ reply.Bears (Value.Names N) := by
  cases reply <;> exact Iff.rfl

end Bears

lemma Chain.Names.knows {c : Chain} (h : c.Names N) : c.Knows N where
  walks := h.walks
  callee callee receiver args hs := by
    have hstage := h.stage
    rw [hs] at hstage
    exact hstage.1

/-- Natives that make no functions name known ones only. -/
lemma Registry.Faithful.names {r : Registry} (h : r.Faithful) : r.Names N :=
  fun _ _ hname _ _ _ hs ha =>
    Reply.names_iff.mpr (h.bears (fun _ => Value.names_plain) hs hname ha)

/-! ### Sources -/

namespace Program.Refers

/-- All that such a program makes are known functions, and walks at known nodes. -/
lemma sources {T : TypeId → Prop} {E : Stop → Prop} (H : p.Refers N) (C : p.Charted N T E) :
    p.Sources (Value.Names N) (Activation.At N) (Activation.Begins N) fun _ => True where
  plain _ hv := Value.names_plain (Value.ne_func_of_isPlain hv)
  block _ := ⟨Value.names_plain fun _ _ => Value.noConfusion,
    Value.names_plain fun _ _ => Value.noConfusion⟩
  constant := H.constant
  closure a id n decl _ hn hpay := by
    intro decl' env he
    cases he
    exact H.closure id n decl hn hpay
  enter _ := id
  successor a id s hw := by
    have h := C.gives_successor (f := a.frame) (hw id rfl) s trivial
    cases hr : p.successor a.frame id s with
    | ok next => rw [hr] at h; exact h
    | error e => exact trivial
  stable := Stable.of_frames fun _ _ _ _ => trivial
  settable := Settable.of_frames fun _ _ _ _ => trivial
  setSlot _ _ _ _ _ := trivial
  close _ _ _ := trivial
  begin s slots parent decl d _ hd _ := ⟨trivial, fun e he => H.entry decl d e hd he⟩

/-- In a store that holds only known functions, nodes denote no others. -/
lemma names_of_store {T : TypeId → Prop} {E : Stop → Prop} (H : p.Refers N)
    (C : p.Charted N T E) (hs : s.Names N) : p.Names N s := by
  intro f id v hv
  have h := (H.sources C).origins.gives_value (f := f) id s ⟨hs, trivial⟩
  rwa [hv] at h

/-- By itself, a chain of such a program comes to known nodes and known functions only. -/
lemma hands {T : TypeId → Prop} {E : Stop → Prop} (H : p.Refers N) (C : p.Charted N T E)
    (hr : p.natives.Names N) (hs : s.Names N) :
    p.Hands s (Store.Keeping (Value.Names N) fun _ => True) (Value.Names N) (Activation.At N)
      (Activation.Begins N) :=
  (H.sources C).hands ⟨hs, trivial⟩ (fun _ _ _ => Value.names_plain fun _ _ => Value.noConfusion)
    fun name symbol args hname ha =>
      Reply.names_iff.mp (hr name symbol hname p.config s args hs ha)

end Program.Refers

end Flowgraph
