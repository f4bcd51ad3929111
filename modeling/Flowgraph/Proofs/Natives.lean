import Mathlib.Tactic.Common
import Flowgraph.Lifetime
import Flowgraph.Native.Probe
import Flowgraph.Proofs.Regime

/-!
# Natives that make no functions

A native sees the store, but the only functions that it hands on are those that it was given or
found there, and it never complains about addresses, of which it knows nothing. A modest native does
not look for anything in the store but what its arguments lead to.
-/

namespace Flowgraph

/-- A value that a native can come by. -/
def Native.Finds (s : Store) (args : List Value) (v : Value) : Prop :=
  (∀ decl env, v ≠ .func decl env) ∨ v ∈ args ∨ ∃ i, v ∈ s.contents i

/-- A reply hands on only what the native can come by. -/
def Reply.Faithful (s : Store) (args : List Value) : Reply → Prop
  | results vs => ∀ v ∈ vs, Native.Finds s args v
  | print _ vs => ∀ v ∈ vs, Native.Finds s args v
  | stop e => e.isAddress = false
  | call f vs => Native.Finds s args f ∧ ∀ v ∈ vs, Native.Finds s args v

/-- All replies of a native are faithful. -/
def Native.Faithful (run : Native) : Prop :=
  ∀ config s args, (run config s args).Faithful s args

/-- All natives of a registry are faithful. -/
def Registry.Faithful (r : Registry) : Prop := ∀ e ∈ r.symbols, Native.Faithful e.2.run

namespace Registry

variable {r : Registry}

/-- What holds of a native and of all that were registered before it holds of all of them. -/
lemma forall_register {P : Native → Prop} (h : ∀ e ∈ r.symbols, P e.2.run) {run : Native}
    (hrun : P run) (name : String) (type : Option TypeId) :
    ∀ e ∈ (r.register name run type).symbols, P e.2.run := by
  intro e he
  rcases List.mem_append.mp he with he | he
  · exact h e (List.mem_filter.mp he).1
  · rw [List.mem_singleton.mp he]
    exact hrun

lemma of_symbol? {P : Native → Prop} (h : ∀ e ∈ r.symbols, P e.2.run) {name : String}
    {symbol : Symbol} (hs : r.symbol? name = some symbol) : P symbol.run := by
  obtain ⟨e, he, rfl⟩ := Option.map_eq_some_iff.mp hs
  exact h e (List.mem_of_find?_eq_some he)

lemma Faithful.register (h : r.Faithful) {run : Native} (hrun : run.Faithful) (name : String)
    (type : Option TypeId) : (r.register name run type).Faithful := forall_register h hrun name type

lemma Faithful.of_symbol? (h : r.Faithful) {name : String} {symbol : Symbol}
    (hs : r.symbol? name = some symbol) : Native.Faithful symbol.run := Registry.of_symbol? h hs

end Registry

namespace Native

variable {s : Store} {args : List Value}

lemma finds_plain {v : Value} (h : ∀ decl env, v ≠ .func decl env) : Finds s args v := .inl h

lemma finds_one {v : Value} (h : ∀ decl env, v ≠ .func decl env) :
    ∀ w ∈ [v], Finds s args w := by
  intro w hw
  rw [List.mem_singleton.mp hw]
  exact finds_plain h

lemma faithful_printLine : printLine.Faithful := fun _ _ _ _ hv => absurd hv List.not_mem_nil

lemma faithful_sprint : sprint.Faithful := fun _ _ _ => finds_one fun _ _ => Value.noConfusion

lemma faithful_itoa : itoa.Faithful := by
  intro config s args
  simp only [itoa]
  split
  · exact finds_one fun _ _ => Value.noConfusion
  · exact rfl

lemma faithful_toUpper : toUpper.Faithful := by
  intro config s args
  simp only [toUpper]
  split
  · exact finds_one fun _ _ => Value.noConfusion
  · exact rfl

lemma faithful_reverse : reverse.Faithful :=
  fun _ _ _ _ hv => .inr (.inl (List.mem_reverse.mp hv))

lemma faithful_apply : apply.Faithful := by
  intro config s args
  cases args with
  | nil =>
    constructor
    · exact finds_plain fun _ _ => Value.noConfusion
    · intro v hv
      cases hv
  | cons f rest =>
    constructor
    · exact .inr (.inl List.mem_cons_self)
    · exact fun v hv => .inr (.inl (List.mem_cons_of_mem _ hv))

lemma faithful_fail : fail.Faithful := fun _ _ _ => rfl

lemma faithful_crash : crash.Faithful := by
  intro config s args
  simp only [crash]
  split <;> exact rfl

lemma faithful_limit : limit.Faithful := fun _ _ _ => finds_one fun _ _ => Value.noConfusion

end Native

/-! ### Modest natives -/

/-- What some values lead to: themselves, and what is held by something that they lead to. -/
inductive Store.Leads (s : Store) (vs : List Value) : Value → Prop
  | given {v : Value} (h : v ∈ vs) : Leads s vs v
  | held {v w : Value} {i : Item} (h : Leads s vs w) (hi : w.item? = some i)
    (hv : v ∈ s.contents i) : Leads s vs v

/-- A value that refers to nothing, or that the arguments lead to. -/
def Native.Reads (s : Store) (args : List Value) (v : Value) : Prop :=
  v.item? = none ∨ s.Leads args v

/-- A reply hands on only what the native can read from its arguments. -/
def Reply.Modest (s : Store) (args : List Value) : Reply → Prop
  | results vs => ∀ v ∈ vs, Native.Reads s args v
  | print _ vs => ∀ v ∈ vs, Native.Reads s args v
  | stop _ => True
  | call f vs => Native.Reads s args f ∧ ∀ v ∈ vs, Native.Reads s args v

/-- All replies of a native are modest. -/
def Native.Modest (run : Native) : Prop :=
  ∀ config s args, (run config s args).Modest s args

/-- All natives of a registry are modest. -/
def Registry.Modest (r : Registry) : Prop := ∀ e ∈ r.symbols, Native.Modest e.2.run

namespace Registry

variable {r : Registry}

lemma Modest.register (h : r.Modest) {run : Native} (hrun : run.Modest) (name : String)
    (type : Option TypeId) : (r.register name run type).Modest := forall_register h hrun name type

lemma Modest.of_symbol? (h : r.Modest) {name : String} {symbol : Symbol}
    (hs : r.symbol? name = some symbol) : Native.Modest symbol.run := Registry.of_symbol? h hs

end Registry

namespace Native

variable {s : Store} {args : List Value}

lemma reads_one {v : Value} (h : v.item? = none) : ∀ w ∈ [v], Reads s args w := by
  intro w hw
  rw [List.mem_singleton.mp hw]
  exact .inl h

lemma reads_given {v : Value} (h : v ∈ args) : Reads s args v := .inr (.given h)

lemma modest_printLine : printLine.Modest := fun _ _ _ _ hv => absurd hv List.not_mem_nil

lemma modest_sprint : sprint.Modest := fun _ _ _ => reads_one rfl

lemma modest_itoa : itoa.Modest := by
  intro config s args
  simp only [itoa]
  split
  · exact reads_one rfl
  · exact trivial

lemma modest_toUpper : toUpper.Modest := by
  intro config s args
  simp only [toUpper]
  split
  · exact reads_one rfl
  · exact trivial

lemma modest_reverse : reverse.Modest := fun _ _ _ _ hv => reads_given (List.mem_reverse.mp hv)

lemma modest_apply : apply.Modest := by
  intro config s args
  cases args with
  | nil =>
    constructor
    · exact .inl rfl
    · intro v hv
      cases hv
  | cons f rest =>
    constructor
    · exact reads_given List.mem_cons_self
    · exact fun v hv => reads_given (List.mem_cons_of_mem _ hv)

lemma modest_fail : fail.Modest := fun _ _ _ => trivial

lemma modest_crash : crash.Modest := by
  intro config s args
  simp only [crash]
  split <;> exact trivial

lemma modest_limit : limit.Modest := fun _ _ _ => reads_one rfl

end Native

/-! ### The natives that there are -/

/-- The standard natives make no functions. -/
theorem faithful_standard : Registry.standard.Faithful := by
  have hempty : Registry.empty.Faithful := fun e he => absurd he List.not_mem_nil
  have hline := hempty.register Native.faithful_printLine "fmt.Println" none
  have hsprint := hline.register Native.faithful_sprint "fmt.Sprint" none
  have hitoa := hsprint.register Native.faithful_itoa "strconv.Itoa" none
  exact hitoa.register Native.faithful_toUpper "strings.ToUpper" none

/-- Neither do the probes. -/
theorem faithful_probing : Registry.probing.Faithful := by
  have hrev := faithful_standard.register Native.faithful_reverse "test.rev" none
  have happly := hrev.register Native.faithful_apply "test.apply" none
  have hfail := happly.register Native.faithful_fail "test.fail" none
  have hpanic := hfail.register Native.faithful_crash "test.panic" none
  exact hpanic.register Native.faithful_limit "test.limit" none

/-- The standard natives are modest. -/
theorem modest_standard : Registry.standard.Modest := by
  have hempty : Registry.empty.Modest := fun e he => absurd he List.not_mem_nil
  have hline := hempty.register Native.modest_printLine "fmt.Println" none
  have hsprint := hline.register Native.modest_sprint "fmt.Sprint" none
  have hitoa := hsprint.register Native.modest_itoa "strconv.Itoa" none
  exact hitoa.register Native.modest_toUpper "strings.ToUpper" none

/-- So are the probes. -/
theorem modest_probing : Registry.probing.Modest := by
  have hrev := modest_standard.register Native.modest_reverse "test.rev" none
  have happly := hrev.register Native.modest_apply "test.apply" none
  have hfail := happly.register Native.modest_fail "test.fail" none
  have hpanic := hfail.register Native.modest_crash "test.panic" none
  exact hpanic.register Native.modest_limit "test.limit" none

end Flowgraph
