import Mathlib.Tactic.Common
import Flowgraph.Proofs.Pointers.Elements

/-!
# What a step prints

A node that prints reads all its operands first, and then writes one line. A native that prints does
so in the step that takes up its reply. No other step of a chain changes the output, and a step that
stops has printed nothing.
-/

namespace Flowgraph

/-- In that store, nothing is printed. -/
def Op.Silent {α : Type} (x : Op α) (s : Store) : Prop :=
  match x s with
  | .ok _ t | .error _ t => t.output = s.output

lemma Op.Keeps.silent {α : Type} {E : Stop → Prop} {x : Op α} {P : α → Prop} {s : Store}
    (h : Op.Keeps (fun t => t.output = s.output) E x P) : x.Silent s := by
  have hs := h s rfl
  rw [Op.Silent]
  cases hx : x s with
  | ok a t =>
    rw [hx] at hs
    exact hs.1
  | error e t =>
    rw [hx] at hs
    exact hs.1

lemma Op.Silent.bind_pure {α β : Type} {x : Op α} {s : Store} (h : x.Silent s) (next : α → β) :
    (x >>= fun a => pure (next a)).Silent s := by
  rw [Silent] at h ⊢
  rw [Op.bind_apply]
  cases hx : x s with
  | ok a t | error e t =>
    rw [hx] at h
    exact h

/-- Unless it prints, a chain leaves the output as it is. -/
lemma durable_output (o : Output) : Durable fun s => s.output = o where
  plain _ _ := trivial
  fresh _ _ := ⟨trivial, trivial⟩
  element _ _ _ _ _ _ := trivial
  entry _ _ _ _ _ := ⟨trivial, trivial⟩
  newBlock _ _ hs _ := hs
  newChannel _ _ hs := hs
  setSlot _ _ _ _ hs := hs
  withFrame _ _ _ hs := hs

/-! ### Nodes -/

namespace Program

variable {p : Program} {f : FrameId} {id : NodeId} {n : Node} {s : Store} {vs : List Value}
  {o : Output} {e : Stop}

/-- The line that a node prints, if it prints and can read what it prints. -/
def line? (p : Program) (f : FrameId) (id : NodeId) (s : Store) : Option String :=
  match p.node id with
  | .ok n =>
    if n.kind = .println then
      match p.allValues f (n.children.drop 1) s with
      | .ok vs => some (s.renderLine vs)
      | .error _ => none
    else none
  | .error _ => none

/-- A node that prints writes one line, which is made of the texts of its operands. -/
lemma perform_println (hn : p.node id = .ok n) (hk : n.kind = .println)
    (hvs : p.allValues f (n.children.drop 1) s = .ok vs) :
    p.perform f id s = .ok .done (s.writeLine (s.renderLine vs)) := by
  rw [perform_of_node hn, hk]
  refine completely_apply ?_
  rw [println, Op.except_bind_apply, hn]
  dsimp only
  rw [Op.look_bind_apply, hvs]
  rfl

/-- If one of its operands cannot be read, it changes nothing. -/
lemma perform_println_error (hn : p.node id = .ok n) (hk : n.kind = .println)
    (he : p.allValues f (n.children.drop 1) s = .error e) : p.perform f id s = .error e s := by
  have hprintln : p.println f id s = .error e s := by
    rw [println, Op.except_bind_apply, hn]
    dsimp only
    rw [Op.look_bind_apply, he]
  rw [perform_of_node hn, hk]
  show completely (p.println f id) s = _
  rw [completely, Op.bind_apply, hprintln]

lemma keeps_output (h : ∀ n, p.node id = .ok n → n.kind ≠ .println) :
    Op.Keeps (fun s => s.output = o) (fun _ => True) (p.perform f id) fun _ => True := by
  refine keeps_perform_of_regime (durable_output o) (fun n hn => ?_) fun _ _ _ _ _ _ _ hs _ _ => hs
  apply regime_of_steady (fun _ _ _ _ hs _ => hs) hn (durable_output o).toSteady
  · exact fun _ _ hs => hs
  · exact fun _ _ _ hs _ => hs
  · exact fun _ _ _ _ _ hs => hs
  · exact fun hk => absurd hk (h n hn)
  · exact fun _ _ _ hs => hs

/-- A node prints its line, or nothing at all. -/
lemma prints_perform (p : Program) (f : FrameId) (id : NodeId) (s : Store) :
    match p.line? f id s with
    | some line => p.perform f id s = .ok .done (s.writeLine line)
    | none => (p.perform f id).Silent s := by
  rw [line?]
  cases hn : p.node id with
  | error e => exact (keeps_output fun m hm => by rw [hn] at hm; cases hm).silent
  | ok n =>
    dsimp only
    split_ifs with hk
    · cases hvs : p.allValues f (n.children.drop 1) s with
      | ok vs => exact perform_println hn hk hvs
      | error e =>
        show Op.Silent (p.perform f id) s
        rw [Op.Silent, perform_println_error hn hk hvs]
    · refine (keeps_output fun m hm => ?_).silent
      rw [hn] at hm
      cases hm
      exact hk

end Program

/-! ### Chains -/

/-- The line that is printed when a reply is taken up. -/
def Reply.line? : Reply → Option String
  | .print line _ => some line
  | _ => none

/-- The line that a native prints when it is started. -/
def Callee.line? (p : Program) (s : Store) : Callee → Option String
  | .declared _ => none
  | .native name args =>
    (p.natives.symbol? name).bind fun symbol => (symbol.run p.config s args).line?

namespace Chain

variable {p : Program} {c : Chain} {s : Store} {step : Op Chain}

/-- The line that a chain prints in its next step. -/
def line? (p : Program) (s : Store) (c : Chain) : Option String :=
  match c.stage, c.walks with
  | .walk, ⟨a, some id, _⟩ :: _ => p.line? a.frame id s
  | .start _ callee, _ => callee.line? p s
  | _, _ => none

/-- A chain prints that line and goes on, or it prints nothing. -/
def Prints (c : Chain) (p : Program) (s : Store) (step : Op Chain) : Prop :=
  match c.line? p s with
  | some line => ∃ d : Chain, step s = .ok d (s.writeLine line) ∧
      (d.stage = .follow ∨ ∃ vs, d.stage = .deliver vs)
  | none => step.Silent s

lemma prints_walk (hs : c.stage = .walk) : c.Prints p s (c.walk p) := by
  obtain ⟨task, walks, stage⟩ := c
  cases hs
  cases walks with
  | nil => exact rfl
  | cons w rest =>
    obtain ⟨a, node, depth⟩ := w
    cases node with
    | none =>
      refine Op.Keeps.silent (E := fun _ => True) (P := fun _ => True) ?_
      exact .bind (.look (Look.gives_any _)) fun _ _ => .pure trivial
    | some id =>
      have hperform := p.prints_perform a.frame id s
      show match p.line? a.frame id s with
        | some line => _
        | none => _
      cases hline : p.line? a.frame id s with
      | some line =>
        rw [hline] at hperform
        refine ⟨⟨task, ⟨a, some id, depth⟩ :: rest, .follow⟩, ?_, .inl rfl⟩
        show (p.perform a.frame id >>= _) s = _
        rw [Op.bind_apply, hperform]
        rfl
      | none =>
        rw [hline] at hperform
        exact hperform.bind_pure _

lemma prints_start {depth : Nat} {callee : Callee} (hs : c.stage = .start depth callee) :
    c.Prints p s (c.start p depth callee) := by
  have hline : c.line? p s = callee.line? p s := by rw [line?, hs]
  rw [Prints, hline]
  cases callee with
  | declared a =>
    show Op.Silent _ s
    refine Op.Keeps.silent (E := fun _ => True) (P := fun _ => True) ?_
    simp only [start]
    split
    · exact .ite (fun _ => .throw trivial) fun _ => .pure trivial
    · exact .pure trivial
  | native name args =>
    simp only [Callee.line?, start]
    cases p.natives.symbol? name with
    | none => exact rfl
    | some symbol =>
      simp only [Option.bind_some]
      have hstart : (get >>= fun t => c.reply (symbol.run p.config t args)) s =
          c.reply (symbol.run p.config s args) s := Op.bind_apply _ _ s
      cases hreply : symbol.run p.config s args with
      | print line vs =>
        rw [hreply] at hstart
        exact ⟨_, hstart, .inr ⟨vs, rfl⟩⟩
      | results vs | stop e | call g vs =>
        rw [hreply] at hstart
        show Op.Silent _ s
        rw [Op.Silent, hstart]
        rfl

/-- Whatever a chain does by itself, it prints its line or nothing. -/
theorem prints_advance (hfit : c.Fits p) (ha : c.advance p = some step) : c.Prints p s step := by
  have hsilent : ∀ {x : Op Chain} {P : Chain → Prop}, c.line? p s = none →
      Op.Keeps (fun t => t.output = s.output) (fun _ => True) x P → c.Prints p s x := by
    intro x P hline hx
    rw [Prints, hline]
    exact hx.silent
  have R := durable_output s.output
  simp only [advance] at ha
  split at ha <;> cases ha
  case h_1 hs => exact prints_walk hs
  case h_2 hs => exact hsilent (by rw [line?, hs]) keeps_follow
  case h_3 callee receiver args hs =>
    exact hsilent (P := fun _ => True) (by rw [line?, hs])
      (.bind (Program.keeps_bindValues R callee receiver args) fun _ _ => .pure trivial)
  case h_4 hs => exact prints_start hs
  case h_5 hs => exact hsilent (by rw [line?, hs]) (keeps_deliver R _)
  case h_6 hs => exact hsilent (by rw [line?, hs]) (keeps_received R hfit hs)
  case h_7 hs => exact hsilent (P := fun _ => True) (by rw [line?, hs]) (.throw trivial)

end Chain

end Flowgraph
