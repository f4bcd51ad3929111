import Mathlib.Logic.Function.Basic
import Flowgraph.Machine.Host
import Flowgraph.Proofs.Output.Lines
import Flowgraph.Proofs.Walks

/-!
# Output is made of whole lines

Chains print while others print, and the host writes lines of its own and takes what has been
printed at any time. What it has taken, together with what is still there, is a merge of the lines
of all who print: each line is in it once and as a whole, and the lines of each are in their own
order.
-/

namespace Flowgraph

/-! ### Merges -/

/-- The last list is a merge of the others: it consists of their elements, those of each list in
their own order. -/
inductive Merge {κ α : Type} [DecidableEq κ] : (κ → List α) → List α → Prop
  | nil : Merge (fun _ => []) []
  | cons {lists : κ → List α} {whole : List α} (k : κ) (a : α) (h : Merge lists whole) :
      Merge (Function.update lists k (a :: lists k)) (a :: whole)

/-- The text of some lines, each of which is followed by a line break. -/
def textOf : List String → String
  | [] => ""
  | line :: lines => line ++ "\n" ++ textOf lines

/-! ### Running a chain -/

namespace Machine

variable {m m' : Machine} {x : ChainId} {mv : Move}

/-- The line that a chain prints when it runs next. -/
def line? (m : Machine) (x : ChainId) : Option String :=
  (m.chain? x).bind fun c => c.line? m.program m.store

lemma output_proceeds (h : m.Proceeds mv m') : m'.store.output = m.store.output := by
  rcases h.store with hs | ⟨ch, v, -, hs⟩ | ⟨ch, hs⟩ <;> rw [hs] <;> rfl

/-- Moves that run no chain print nothing. -/
lemma output_of_ne_run (h : ∀ x, mv ≠ .run x) : (m.step mv).store.output = m.store.output := by
  rcases m.step_cases mv with hm | ⟨x, c, step, hmv, -⟩
  · exact output_proceeds hm
  · exact absurd hmv (h x)

lemma line?_of_advance {c : Chain} (hc : m.chain? x = some c)
    (ha : c.advance m.program = none) : m.line? x = none := by
  rw [line?, hc, Option.bind_some, Chain.line?]
  rw [Chain.advance] at ha
  cases hs : c.stage <;> rw [hs] at ha <;> first | rfl | cases ha

/-- When a chain runs, it prints its line and goes on, or nothing is printed. -/
theorem output_run (hfit : m.Fits) (x : ChainId) :
    (∃ line d, m.line? x = some line ∧ (m.step (.run x)).store = m.store.writeLine line ∧
      (m.step (.run x)).chain? x = some d ∧ (d.stage = .follow ∨ ∃ vs, d.stage = .deliver vs)) ∨
    m.line? x = none ∧ (m.step (.run x)).store.output = m.store.output := by
  cases hc : m.chain? x with
  | none => exact .inr ⟨by rw [line?, hc]; rfl, by rw [step, run, hc]⟩
  | some c =>
    cases ha : c.advance m.program with
    | none =>
      refine .inr ⟨line?_of_advance hc ha, ?_⟩
      rcases m.step_cases (.run x) with h | ⟨y, c', step, hmv, hc', ha', -⟩
      · exact output_proceeds h
      · cases hmv
        cases hc.symm.trans hc'
        cases ha.symm.trans ha'
    | some step =>
      have hline : m.line? x = c.line? m.program m.store := by rw [line?, hc, Option.bind_some]
      have hprints : c.Prints m.program m.store step := Chain.prints_advance (hfit x c hc) ha
      rw [Chain.Prints, ← hline] at hprints
      cases hx : m.line? x with
      | some line =>
        rw [hx] at hprints
        obtain ⟨d, hstep, hd⟩ := hprints
        have hself :
            ((m.mapStore fun _ => m.store.writeLine line).setChain x d).chain? x = some d :=
          chain?_setChain_self (m := m.mapStore fun _ => _) hc
        refine .inl ⟨line, d, rfl, ?_⟩
        rw [step_of_ok hc ha hstep]
        exact ⟨rfl, hself, hd⟩
      | none =>
        rw [hx] at hprints
        refine .inr ⟨rfl, ?_⟩
        change Op.Silent step m.store at hprints
        rw [Op.Silent] at hprints
        cases hstep : step m.store with
        | ok d t =>
          rw [hstep] at hprints
          rw [step_of_ok hc ha hstep]
          exact hprints
        | error e t =>
          rw [hstep] at hprints
          rw [step_of_error hc ha hstep]
          exact hprints

end Machine

/-! ### Events -/

/-- Who prints. Natives print on behalf of the chain that has called them. -/
inductive Printer where
  | chain (x : ChainId)
  | host
  deriving DecidableEq

/-- What can happen next: a move, or something that the host does between moves. -/
inductive Event where
  | move (mv : Move)
  /-- The host begins a chain. -/
  | begin (c : Chain) (hosted : c.Hosted)
  /-- The host writes a line. -/
  | write (line : String)
  /-- The host takes what was printed. -/
  | take
  /-- The host changes the store in some other way. -/
  | change (edit : Store → Store) (spares : ∀ s, (edit s).output = s.output)
  | takeFaults

namespace Event

variable {m : Machine} {e : Event}

/-- The machine after an event. -/
def next (m : Machine) : Event → Machine
  | move mv => m.step mv
  | begin c _ => (m.addChain c).2
  | write line => m.mapStore fun s => s.writeLine line
  | take => m.takeOutput.2
  | change edit _ => m.mapStore edit
  | takeFaults => m.takeFaults.2

/-- The machine after some events. -/
def run : Machine → List Event → Machine
  | m, [] => m
  | m, e :: events => run (e.next m) events

/-- What the host takes in an event. -/
def text (m : Machine) : Event → String
  | take => m.takeOutput.1
  | _ => ""

/-- What the host takes in some events. -/
def taken : Machine → List Event → String
  | _, [] => ""
  | m, e :: events => e.text m ++ taken (e.next m) events

/-- The line that somebody prints in an event. -/
def line? (m : Machine) : Event → Printer → Option String
  | move (.run x), .chain y => if y = x then m.line? x else none
  | write line, .host => some line
  | _, _ => none

/-- The lines that somebody prints in some events, in their order. -/
def linesOf (x : Printer) : Machine → List Event → List String
  | _, [] => []
  | m, e :: events => (e.line? m x).toList ++ linesOf x (e.next m) events

/-- What has been taken and what is still there is a merge of the lines of all who print. -/
def Merges (m : Machine) (events : List Event) : Prop :=
  ∃ lines, Merge (fun x => linesOf x m events) lines ∧
    taken m events ++ (run m events).store.output.text = m.store.output.text ++ textOf lines

/-- Whatever happens, the chains that run keep fitting the nodes they run through. -/
lemma fits_next (hfit : m.Fits) (e : Event) : (e.next m).Fits := by
  cases e with
  | move mv => exact hfit.step mv
  | begin c hosted => exact hfit.addChain (Machine.fits_hosted hosted)
  | write line | change edit _ | take | takeFaults => exact hfit

lemma kept_writeLine (o : Output) (line : String) : (o.writeLine line).kept = o.kept := by
  rw [Output.writeLine]
  split <;> rfl

lemma text_writeLine {o : Output} (hkept : o.kept = true) (line : String) :
    (o.writeLine line).text = o.text ++ (line ++ "\n") := by
  rw [Output.writeLine, if_pos hkept, String.append_assoc]

/-- In an event, somebody prints a line, or the host takes what was printed, or nothing happens to
the output. -/
lemma output_next (hfit : m.Fits) (e : Event) :
    (∃ x line, (∀ y, e.line? m y = if y = x then some line else none) ∧ e.text m = "" ∧
      (e.next m).store.output = m.store.output.writeLine line) ∨
    (∀ y, e.line? m y = none) ∧
      (e = take ∨ e.text m = "" ∧ (e.next m).store.output = m.store.output) := by
  cases e with
  | move mv =>
    cases mv with
    | run x =>
      rcases m.output_run hfit x with ⟨line, d, hline, hstore, -⟩ | ⟨hline, houtput⟩
      · refine .inl ⟨.chain x, line, fun y => ?_, rfl, congrArg Store.output hstore⟩
        cases y with
        | host => rfl
        | chain y =>
          show (if y = x then m.line? x else none) = _
          rw [hline]
          simp only [Printer.chain.injEq]
      · refine .inr ⟨fun y => ?_, .inr ⟨rfl, houtput⟩⟩
        cases y with
        | host => rfl
        | chain y =>
          show (if y = x then m.line? x else none) = _
          rw [hline, ite_self]
    | seeClosed x =>
      exact .inr ⟨fun y => rfl, .inr ⟨rfl, Machine.output_of_ne_run fun _ => Move.noConfusion⟩⟩
    | pass microseconds =>
      exact .inr ⟨fun y => rfl, .inr ⟨rfl, Machine.output_of_ne_run fun _ => Move.noConfusion⟩⟩
  | write line =>
    refine .inl ⟨.host, line, fun y => ?_, rfl, rfl⟩
    cases y with
    | host => rfl
    | chain y => rfl
  | take => exact .inr ⟨fun y => rfl, .inl rfl⟩
  | change edit spares => exact .inr ⟨fun y => rfl, .inr ⟨rfl, spares m.store⟩⟩
  | begin c hosted => exact .inr ⟨fun y => rfl, .inr ⟨rfl, rfl⟩⟩
  | takeFaults => exact .inr ⟨fun y => rfl, .inr ⟨rfl, rfl⟩⟩

/-- Output that is kept is kept on. -/
lemma kept_next (hfit : m.Fits) (e : Event) :
    (e.next m).store.output.kept = m.store.output.kept := by
  rcases output_next hfit e with ⟨x, line, -, -, houtput⟩ | ⟨-, rfl | ⟨-, houtput⟩⟩
  · rw [houtput, kept_writeLine]
  · rfl
  · rw [houtput]

/-- Whatever happens, what has been printed is a merge of the lines of all. -/
theorem merges (hfit : m.Fits) (hkept : m.store.output.kept = true) (events : List Event) :
    Merges m events := by
  -- A merge grows at its front, so the first event is split off, and the rest is a merge by itself.
  induction events generalizing m with
  | nil => exact ⟨[], .nil, by simp [taken, run, textOf]⟩
  | cons e events ih =>
    obtain ⟨lines, hmerge, htext⟩ := ih (fits_next hfit e) ((kept_next hfit e).trans hkept)
    have hsplit : taken m (e :: events) ++ (run m (e :: events)).store.output.text =
        e.text m ++ ((e.next m).store.output.text ++ textOf lines) := by
      rw [taken, run, String.append_assoc, htext]
    rcases output_next hfit e with ⟨x, line, hline, hnone, houtput⟩ | ⟨hline, hother⟩
    · have hlists : (fun y => linesOf y m (e :: events)) = Function.update
          (fun y => linesOf y (e.next m) events) x (line :: linesOf x (e.next m) events) := by
        funext y
        rw [linesOf, hline, Function.update_apply]
        split_ifs with hy
        · rw [hy]
          rfl
        · rfl
      refine ⟨line :: lines, ?_, ?_⟩
      · rw [hlists]
        exact hmerge.cons x line
      · rw [hsplit, hnone, houtput, text_writeLine hkept, textOf, String.empty_append,
          String.append_assoc]
    · have hlists :
          (fun y => linesOf y m (e :: events)) = fun y => linesOf y (e.next m) events := by
        funext y
        rw [linesOf, hline]
        rfl
      refine ⟨lines, ?_, ?_⟩
      · rw [hlists]
        exact hmerge
      · rw [hsplit, ← String.append_assoc]
        rcases hother with rfl | ⟨hnone, houtput⟩
        · exact congrArg (· ++ textOf lines) (String.append_empty)
        · rw [hnone, houtput, String.empty_append]

lemma fits_run (hfit : m.Fits) (events : List Event) : (run m events).Fits := by
  induction events generalizing m with
  | nil => exact hfit
  | cons e events ih => exact ih (fits_next hfit e)

end Event

/-! ### One write for each line -/

namespace Machine

variable {m : Machine}

/-- What is printed has been read and put together before, and is written all at once. -/
structure WritesOnce (m : Machine) : Prop where
  /-- A node that prints writes the texts of all its operands on one line. If one of them cannot be
  read, nothing changes. -/
  println : ∀ (r : Route) (id : NodeId) (n : Node), m.At r (some id) → m.program.node id = .ok n →
    n.kind = .println →
    (∃ vs, m.program.allValues r.frame (n.children.drop 1) m.store = .ok vs ∧
      (m.step (.run r.chain)).store = m.store.writeLine (m.store.renderLine vs)) ∨
    ∃ e, m.program.allValues r.frame (n.children.drop 1) m.store = .error e ∧
      (m.step (.run r.chain)).store = m.store
  /-- The native that prints gets its arguments as values, and writes their texts on one line. -/
  native : ∀ (x : ChainId) (c : Chain) (depth : Nat) (name : String) (symbol : Symbol)
    (args : List Value), m.chain? x = some c → c.stage = .start depth (.native name args) →
    m.program.natives.symbol? name = some symbol → symbol.run = Native.printLine →
    (m.step (.run x)).store = m.store.writeLine (m.store.renderLine args)
  /-- A chain that is stopped by a step prints nothing in it. -/
  stopped : ∀ (x : ChainId) (d : Chain), (m.step (.run x)).chain? x = some d →
    (d.stage = .lost ∨ ∃ e, d.stage = .exit (.error e)) →
    (m.step (.run x)).store.output = m.store.output

lemma writesOnce (hfit : m.Fits) : m.WritesOnce where
  println r id n hat hn hk := by
    cases hvs : m.program.allValues r.frame (n.children.drop 1) m.store with
    | ok vs =>
      refine .inl ⟨vs, rfl, ?_⟩
      rw [hat.step_ok (Program.perform_println hn hk hvs)]
      rfl
    | error e =>
      refine .inr ⟨e, rfl, ?_⟩
      rw [hat.step_error (Program.perform_println_error hn hk hvs)]
      rfl
  native x c depth name symbol args hc hs hsymbol hrun := by
    have hline : m.line? x = some (m.store.renderLine args) := by
      rw [line?, hc, Option.bind_some, Chain.line?, hs]
      simp only [Callee.line?, hsymbol, Option.bind_some, hrun]
      rfl
    rcases m.output_run hfit x with ⟨line, d, hx, hstore, -⟩ | ⟨hx, -⟩
    · rw [hline] at hx
      cases hx
      exact hstore
    · rw [hline] at hx
      cases hx
  stopped x d hd hstopped := by
    rcases m.output_run hfit x with ⟨line, d', -, -, hd', hstage⟩ | ⟨-, houtput⟩
    · cases hd.symm.trans hd'
      rcases hstage with hstage | ⟨vs, hstage⟩ <;> rw [hstage] at hstopped <;>
        rcases hstopped with h | ⟨e, h⟩ <;> cases h
    · exact houtput

/-- What has been taken from the output since the graph was loaded, together with what is there now,
is a merge of the lines of all who print, and each line is written at once. -/
structure Accounts (m : Machine) (events : List Event) : Prop where
  merged : ∃ lines, Merge (fun x => Event.linesOf x m events) lines ∧
    Event.taken m events ++ (Event.run m events).store.output.text = textOf lines
  written : (Event.run m events).WritesOnce

/-- Output is a merge of whole lines at any time, however chains run and whatever the host does in
between. -/
theorem output_merges {graph : Graph} {natives : Registry} {config : Config}
    (hload : Machine.load graph natives config true = .ok m) (events : List Event) :
    m.Accounts events := by
  obtain ⟨p, -, rfl⟩ := Machine.of_load hload
  have hfit : (ofProgram p true).Fits := fun y c hc => by cases hc
  obtain ⟨lines, hmerge, htext⟩ := Event.merges hfit rfl events
  refine ⟨⟨lines, hmerge, ?_⟩, writesOnce (Event.fits_run hfit events)⟩
  rw [htext]
  exact String.empty_append

/-- A node that prints a text. -/
def greeting : Graph where
  globals := 1
  nodes := #[
    { kind := .println, children := [⟨1⟩, ⟨2⟩] },
    { kind := .ident },
    { kind := .basicLit, payload := some (.literal (.str "hi")) }]

/-- The host writes a line before and after a chain prints, and takes the output in between. -/
def greetings : List Event :=
  [.write "a", .begin (.atNode ⟨0⟩) (.atNode ⟨0⟩), .move (.run ⟨0⟩), .take, .write "b"]

theorem output_merges_greeting : ∃ m, Machine.load greeting .empty {} true = .ok m ∧
    m.Accounts greetings ∧ Event.linesOf (.chain ⟨0⟩) m greetings = ["hi"] ∧
    Event.linesOf .host m greetings = ["a", "b"] ∧ Event.taken m greetings = "a\nhi\n" := by
  refine ⟨_, rfl, ?_, rfl, rfl, rfl⟩
  exact output_merges (show Machine.load greeting .empty {} true = .ok _ from rfl) greetings

end Machine

end Flowgraph
