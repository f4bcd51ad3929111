import Mathlib.Tactic.Common
import Flowgraph.Store.Frame

/-!
# What computations guarantee

An operation is judged by a property `I` of stores that it may rely on and has to restore, by a
property `P` of its results, and by a property `E` of the stops with which it may end early. The
same is said of looks at the store, which change nothing, and of plain results.

The judgements compose along the monadic structure of an operation, so an operation is judged by
judging its parts.
-/

namespace Flowgraph

variable {α β : Type} {I : Store → Prop} {E : Stop → Prop} {P : α → Prop} {Q : β → Prop}

/-! ### Plain results -/

/-- A result is a value with `P`, or a stop with `E`. -/
def Ends (E : Stop → Prop) (P : α → Prop) : Except Stop α → Prop
  | .ok a => P a
  | .error e => E e

@[simp] lemma ends_ok (a : α) : Ends E P (.ok a) ↔ P a := Iff.rfl

@[simp] lemma ends_error (e : Stop) : Ends E P (.error e : Except Stop α) ↔ E e := Iff.rfl

/-- Nothing is asked of a result but to be what it is. -/
lemma ends_any (x : Except Stop α) : Ends (fun _ => True) (fun a => x = .ok a) x := by
  cases x with
  | ok a => exact rfl
  | error e => exact trivial

lemma Ends.mono {P' : α → Prop} {x : Except Stop α} (h : Ends E P x) (hP : ∀ a, P a → P' a) :
    Ends E P' x := by
  cases x with
  | ok a => exact hP a h
  | error e => exact h

lemma Ends.stops {E' : Stop → Prop} {x : Except Stop α} (h : Ends E P x) (hE : ∀ e, E e → E' e) :
    Ends E' P x := by
  cases x with
  | ok a => exact h
  | error e => exact hE e h

/-- Whatever else is known, a result is the result. -/
lemma Ends.self {x : Except Stop α} (h : Ends E P x) : Ends E (fun a => x = .ok a) x := by
  cases x with
  | ok a => exact rfl
  | error e => exact h

lemma Ends.bind {x : Except Stop α} {next : α → Except Stop β} (h : Ends E P x)
    (hn : ∀ a, P a → Ends E Q (next a)) : Ends E Q (x >>= next) := by
  cases x with
  | ok a => exact hn a h
  | error e => exact h

/-! ### Looks -/

/-- In every store with `I`, a look ends with a result that has `P` or with a stop that has
`E`. -/
def Look.Gives (I : Store → Prop) (E : Stop → Prop) (look : Look α) (P : α → Prop) : Prop :=
  ∀ s, I s → Ends E P (look s)

namespace Look

lemma Gives.pure {a : α} (h : P a) : Gives I E (Pure.pure a) P := fun _ _ => h

lemma Gives.throw {e : Stop} (h : E e) : Gives I E (MonadExcept.throw e : Look α) P := fun _ _ => h

lemma Gives.lift {x : Except Stop α} (h : Ends E P x) : Gives I E (liftM x) P := fun _ _ => h

lemma Gives.bind {look : Look α} {next : α → Look β} (h : Gives I E look P)
    (hn : ∀ a, P a → Gives I E (next a) Q) : Gives I E (look >>= next) Q :=
  fun s hs => (h s hs).bind fun a ha => hn a ha s hs

lemma Gives.mono {P' : α → Prop} {look : Look α} (h : Gives I E look P)
    (hP : ∀ a, P a → P' a) : Gives I E look P' :=
  fun s hs => (h s hs).mono hP

/-- Whatever is read from the store may be assumed of the store at hand. -/
lemma Gives.read {next : Store → Look β} (hn : ∀ s, I s → Ends E Q (next s s)) :
    Gives I E (MonadReader.read >>= next) Q := fun s hs => hn s hs

lemma Gives.mapM {look : α → Look β} {l : List α} (h : ∀ a ∈ l, Gives I E (look a) Q) :
    Gives I E (l.mapM look) fun bs => ∀ b ∈ bs, Q b := by
  induction l with
  | nil => rw [List.mapM_nil]; exact Gives.pure fun b hb => absurd hb List.not_mem_nil
  | cons a l ih =>
    rw [List.mapM_cons]
    refine .bind (h a List.mem_cons_self) fun b hb => ?_
    refine .bind (ih fun a ha => h a (List.mem_cons_of_mem _ ha)) fun bs hbs => ?_
    refine Gives.pure fun c hc => ?_
    rcases List.mem_cons.mp hc with rfl | hc
    · exact hb
    · exact hbs c hc

/-- Nothing is asked of a look. -/
lemma gives_any (look : Look α) : Gives I (fun _ => True) look fun _ => True := by
  intro s _
  cases look s with
  | ok a => exact trivial
  | error e => exact trivial

end Look

/-! ### Operations -/

/-- From every store with `I`, an operation leads to a store with `I`; its result has `P`, or it
stops early with a stop that has `E`. -/
def Op.Keeps (I : Store → Prop) (E : Stop → Prop) (x : Op α) (P : α → Prop) : Prop :=
  ∀ s, I s → match x s with
    | .ok a s' => I s' ∧ P a
    | .error e s' => I s' ∧ E e

namespace Op

/-- Looking twice is one look after the other. -/
lemma lift_bind (look : Look α) (next : α → Look β) :
    (liftM (look >>= next) : Op β) = liftM look >>= fun a => liftM (next a) := by
  funext s
  rw [look_bind_apply]
  simp only [liftM, monadLift, MonadLift.monadLift, Op.read, bind, ReaderT.bind, Except.bind]
  cases look s with
  | ok a => rfl
  | error e => rfl

/-- A result that needs no store is no look at it. -/
lemma lift_lift (x : Except Stop α) :
    (liftM (liftM x : Look α) : Op α) = (liftM x : Op α) := by
  funext s
  cases x with
  | ok a => rfl
  | error e => rfl

lemma Keeps.pure {a : α} (h : P a) : Keeps I E (Pure.pure a) P := fun _ hs => ⟨hs, h⟩

lemma Keeps.throw {e : Stop} (h : E e) : Keeps I E (MonadExcept.throw e : Op α) P :=
  fun _ hs => ⟨hs, h⟩

lemma Keeps.bind {x : Op α} {next : α → Op β} (h : Keeps I E x P)
    (hn : ∀ a, P a → Keeps I E (next a) Q) : Keeps I E (x >>= next) Q := by
  intro s hs
  have hx := h s hs
  rw [bind_apply]
  cases hxs : x s with
  | ok a s' => rw [hxs] at hx; exact hn a hx.2 s' hx.1
  | error e s' => rw [hxs] at hx; exact hx

lemma Keeps.throw_bind {e : Stop} {next : α → Op β} (h : E e) :
    Keeps I E (MonadExcept.throw e >>= next) Q := fun _ hs => ⟨hs, h⟩

lemma Keeps.mono {P' : α → Prop} {x : Op α} (h : Keeps I E x P) (hP : ∀ a, P a → P' a) :
    Keeps I E x P' := by
  intro s hs
  have hx := h s hs
  cases hxs : x s with
  | ok a s' => rw [hxs] at hx; exact ⟨hx.1, hP a hx.2⟩
  | error e s' => rw [hxs] at hx; exact hx

lemma Keeps.look {look : Look α} (h : Look.Gives I E look P) :
    Keeps I E (liftM look : Op α) P := by
  intro s hs
  have hl := h s hs
  simp only [liftM, monadLift, MonadLift.monadLift, Op.read]
  cases hls : look s with
  | ok a => rw [hls] at hl; exact ⟨hs, hl⟩
  | error e => rw [hls] at hl; exact ⟨hs, hl⟩

lemma Keeps.lift {x : Except Stop α} (h : Ends E P x) : Keeps I E (liftM x : Op α) P := by
  intro s hs
  cases x with
  | ok a => exact ⟨hs, h⟩
  | error e => exact ⟨hs, h⟩

lemma Keeps.modify {change : Store → Store} (h : ∀ s, I s → I (change s)) :
    Keeps I E (modify change : Op Unit) fun _ => True :=
  fun s hs => ⟨h s hs, trivial⟩

lemma Keeps.create {make : Store → α × Store} (h : ∀ s, I s → I (make s).2 ∧ P (make s).1) :
    Keeps I E (create make) P := h

/-- A store that was read had `I`, whatever became of it since. -/
lemma Keeps.get {next : Store → Op β} (hn : ∀ t, I t → Keeps I E (next t) Q) :
    Keeps I E (MonadState.get >>= next) Q := fun s hs => hn s hs s hs

/-- A store that is read is the store at hand. -/
lemma Keeps.inspect {next : Store → Op β}
    (hn : ∀ s, I s → match next s s with
      | .ok b s' => I s' ∧ Q b
      | .error e s' => I s' ∧ E e) :
    Keeps I E (MonadState.get >>= next) Q := fun s hs => hn s hs

lemma Keeps.forM {step : α → Op Unit} {l : List α}
    (h : ∀ a ∈ l, Keeps I E (step a) fun _ => True) :
    Keeps I E (l.forM step) fun _ => True := by
  induction l with
  | nil => exact Keeps.pure trivial
  | cons a l ih =>
    refine .bind (h a List.mem_cons_self) fun _ _ => ?_
    exact ih fun a ha => h a (List.mem_cons_of_mem _ ha)

lemma Keeps.mapM {step : α → Op β} {l : List α} (h : ∀ a ∈ l, Keeps I E (step a) Q) :
    Keeps I E (l.mapM step) fun bs => ∀ b ∈ bs, Q b := by
  induction l with
  | nil => rw [List.mapM_nil]; exact Keeps.pure fun b hb => absurd hb List.not_mem_nil
  | cons a l ih =>
    rw [List.mapM_cons]
    refine .bind (h a List.mem_cons_self) fun b hb => ?_
    refine .bind (ih fun a ha => h a (List.mem_cons_of_mem _ ha)) fun bs hbs => ?_
    refine Keeps.pure fun c hc => ?_
    rcases List.mem_cons.mp hc with rfl | hc
    · exact hb
    · exact hbs c hc

lemma Keeps.times {x : Op α} (n : Nat) (h : Keeps I E x P) :
    Keeps I E (times n x) fun as => ∀ a ∈ as, P a := by
  induction n with
  | zero => exact Keeps.pure fun a ha => absurd ha List.not_mem_nil
  | succ n ih =>
    rw [times_succ]
    refine .bind h fun a ha => .bind ih fun as has => Keeps.pure fun c hc => ?_
    rcases List.mem_cons.mp hc with rfl | hc
    · exact ha
    · exact has c hc

lemma Keeps.ite {c : Prop} [Decidable c] {x y : Op α} (hx : c → Keeps I E x P)
    (hy : ¬c → Keeps I E y P) : Keeps I E (if c then x else y) P := by
  split_ifs with h
  · exact hx h
  · exact hy h

end Op

end Flowgraph
