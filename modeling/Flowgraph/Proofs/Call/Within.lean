import Mathlib.Data.List.Forall2
import Mathlib.Tactic.Common
import Flowgraph.Proofs.Activation
import Flowgraph.Proofs.Stages

/-!
# Inside a call

A chain that calls goes on above the walks that it had. As long as it does, it does the same as a
chain that was begun with nothing but this call: what is below, and how deep the call is nested,
makes no difference unless nesting is limited.
-/

namespace Flowgraph

variable {p : Program} {base : List Walk} {c c' : Chain}

/-! ### Agreement -/

/-- Two computations come out alike: they leave the same store and have related results, or stop
alike. -/
inductive Op.Alike {α β : Type} (R : α → β → Prop) :
    EStateM.Result Stop Store α → EStateM.Result Stop Store β → Prop
  | ok {a : α} {b : β} (s : Store) (h : R a b) : Alike R (.ok a s) (.ok b s)
  | error (e : Stop) (s : Store) : Alike R (.error e s) (.error e s)

/-- Two computations come out alike in every store. -/
def Op.Agree {α β : Type} (R : α → β → Prop) (x : Op α) (y : Op β) : Prop :=
  ∀ s, Alike R (x s) (y s)

namespace Op

variable {α β γ : Type} {R S : α → β → Prop}

lemma Alike.mono {x : EStateM.Result Stop Store α} {y : EStateM.Result Stop Store β}
    (h : Alike R x y) (hR : ∀ a b, R a b → S a b) : Alike S x y := by
  cases h with
  | ok s h => exact .ok s (hR _ _ h)
  | error e s => exact .error e s

lemma Alike.refl {T : α → α → Prop} (x : EStateM.Result Stop Store α) (h : ∀ a, T a a) :
    Alike T x x := by
  cases x with
  | ok a s => exact .ok s (h a)
  | error e s => exact .error e s

lemma Agree.pure {a : α} {b : β} (h : R a b) :
    Agree R (Pure.pure a : Op α) (Pure.pure b : Op β) := fun s => .ok s h

lemma Agree.throw (e : Stop) :
    Agree R (MonadExcept.throw e : Op α) (MonadExcept.throw e : Op β) := fun s => .error e s

/-- Both begin with the same. -/
lemma Agree.bind (x : Op γ) {f : γ → Op α} {g : γ → Op β} (h : ∀ a, Agree R (f a) (g a)) :
    Agree R (x >>= f) (x >>= g) := by
  intro s
  rw [bind_apply, bind_apply]
  cases x s with
  | ok a s' => exact h a s'
  | error e s' => exact .error e s'

lemma Agree.get {f : Store → Op α} {g : Store → Op β} (h : ∀ t, Agree R (f t) (g t)) :
    Agree R (MonadState.get >>= f) (MonadState.get >>= g) := fun s => h s s

end Op

/-! ### Chains that do the same -/

/-- Two walks differ at most in how deep they are nested. -/
def Walk.Like (w w' : Walk) : Prop := w'.activation = w.activation ∧ w'.node = w.node

/-- Two stages differ at most in how deep they are nested. -/
inductive Stage.Like : Stage → Stage → Prop
  | start (depth depth' : Nat) (callee : Callee) :
    Like (.start depth callee) (.start depth' callee)
  | same (stage : Stage) : Like stage stage

/-- The stages in which a call is not over. -/
def Stage.isInside : Stage → Bool
  | .join _ | .exit _ | .leave _ | .ended _ | .lost => false
  | _ => true

/-- The stages in which a call may be that has not made a walk yet. -/
def Stage.isBeginning : Stage → Bool
  | .call _ _ _ | .start _ _ => true
  | _ => false

/-- Above the walks that it had before a call, a chain does the same as another one does from its
beginning. -/
structure Chain.Within (base : List Walk) (c c' : Chain) : Prop where
  walks : ∃ ws, c.walks = ws ++ base ∧ List.Forall₂ Walk.Like ws c'.walks
  stage : c.stage.Like c'.stage
  inside : c'.stage.isInside = true
  beginning : c'.walks = [] → c'.stage.isBeginning = true

/-- A call is over: it has returned to the walks that were there before, or the chains were
aborted. A call that is inside an operation without end has no outcome. -/
inductive Chain.Over (base : List Walk) : Option Outcome → Chain → Chain → Prop
  | returned {vs : List Value} {c c' : Chain} (hw : c.walks = base) (hs : c.stage = .deliver vs)
    (hw' : c'.walks = []) (hs' : c'.stage = .deliver vs) : Over base (some (.ok vs)) c c'
  | aborted {e : Stop} {c c' : Chain} (hs : c.stage = .exit (.error e))
    (hs' : c'.stage = .exit (.error e)) : Over base (some (.error e)) c c'
  | lost {c c' : Chain} (hs : c.stage = .lost) (hs' : c'.stage = .lost) : Over base none c c'

/-- A call goes on, or is over. -/
def Chain.Alike (base : List Walk) (c c' : Chain) : Prop :=
  c.Within base c' ∨ ∃ outcome, Over base outcome c c'

namespace Chain

/-! ### Other stages -/

/-- In a stage that a call does not begin with, there is a walk. -/
lemma Within.walks_ne_nil (h : c.Within base c') (hs : c'.stage.isBeginning = false) :
    c'.walks ≠ [] := by
  intro he
  simp [h.beginning he] at hs

/-- Where there is a walk, it is the topmost one of both chains. -/
lemma Within.topmost (h : c.Within base c') (hne : c'.walks ≠ []) :
    ∃ a node depth ws depth' ws', c.walks = ⟨a, node, depth⟩ :: (ws ++ base) ∧
      c'.walks = ⟨a, node, depth'⟩ :: ws' ∧ List.Forall₂ Walk.Like ws ws' := by
  obtain ⟨ws, hws, hlike⟩ := h.walks
  cases hw' : c'.walks with
  | nil => exact absurd hw' hne
  | cons w' ws' =>
    rw [hw'] at hlike
    obtain ⟨w, ws, hw, hrest, rfl⟩ := List.forall₂_cons_right_iff.mp hlike
    obtain ⟨a, node, depth⟩ := w
    obtain ⟨a', node', depth'⟩ := w'
    obtain ⟨rfl, rfl⟩ := hw
    exact ⟨a', node', depth, ws, depth', ws', hws, rfl, hrest⟩

lemma Within.stage_eq (h : c.Within base c') :
    c.stage = c'.stage ∨ ∃ depth depth' callee, c.stage = .start depth callee ∧
      c'.stage = .start depth' callee := by
  generalize hs : c.stage = stage
  generalize hs' : c'.stage = stage'
  have hlike := h.stage
  rw [hs, hs'] at hlike
  cases hlike with
  | start depth depth' callee => exact .inr ⟨depth, depth', callee, rfl, rfl⟩
  | same stage => exact .inl rfl

lemma Within.restage (h : c.Within base c') (hw : c'.walks ≠ []) {stage : Stage}
    (hi : stage.isInside = true) :
    ({ c with stage := stage } : Chain).Within base { c' with stage := stage } where
  walks := h.walks
  stage := .same stage
  inside := hi
  beginning he := absurd he hw

lemma Within.proceed (h : c.Within base c') (hw : c'.walks ≠ []) :
    c.proceed.Within base c'.proceed := by
  obtain ⟨a, node, depth, ws, depth', ws', hc, hc', -⟩ := h.topmost hw
  rw [Chain.proceed, Chain.proceed, if_neg (by rw [hc]; simp), if_neg (by rw [hc']; simp)]
  exact h.restage hw rfl

lemma alike_exit (c c' : Chain) (e : Stop) :
    (c.exit (.error e)).Alike base (c'.exit (.error e)) := .inr ⟨_, .aborted rfl rfl⟩

lemma alike_stopChain (c c' : Chain) (e : Stop) :
    (Machine.stopChain c e).Alike base (Machine.stopChain c' e) := by
  cases e with
  | endless => exact .inr ⟨_, .lost rfl rfl⟩
  | fault f => exact alike_exit c c' _
  | panic text => exact alike_exit c c' _

/-! ### Steps of a chain by itself -/

/-- Results are handed to a walk of the call, or are the results of the call. -/
lemma alike_deliver {ws ws' : List Walk} (h : List.Forall₂ Walk.Like ws ws') (vs : List Value) :
    ({ c with walks := ws ++ base, stage := .deliver vs } : Chain).Alike base
      { c' with walks := ws', stage := .deliver vs } := by
  cases h with
  | nil => exact .inr ⟨_, .returned rfl rfl rfl rfl⟩
  | cons hw hws => exact .inl ⟨⟨_, rfl, .cons hw hws⟩, .same _, rfl, fun he => by cases he⟩

lemma agree_walk (h : c.Within base c') (hs : c'.stage = .walk) :
    Op.Agree (Chain.Alike base) (c.walk p) (c'.walk p) := by
  have hne : c'.walks ≠ [] := h.walks_ne_nil (by rw [hs]; rfl)
  obtain ⟨a, node, depth, ws, depth', ws', hc, hc', hlike⟩ := h.topmost hne
  have hwalks := h.walks
  simp only [Chain.walk, hc, hc'] at hwalks ⊢
  cases node with
  | none => exact .bind _ fun vs => .pure (alike_deliver hlike vs)
  | some id =>
    refine .bind _ fun pending => .pure (.inl ⟨hwalks, ?_, ?_, fun he => by cases he⟩)
    · cases pending with
      | call callee => exact .start _ _ callee
      | _ => exact .same _
    · cases pending <;> rfl

lemma agree_follow (h : c.Within base c') (hs : c'.stage = .follow) :
    Op.Agree (Chain.Alike base) (c.follow p) (c'.follow p) := by
  have hne : c'.walks ≠ [] := h.walks_ne_nil (by rw [hs]; rfl)
  obtain ⟨a, node, depth, ws, depth', ws', hc, hc', hlike⟩ := h.topmost hne
  have hwalk : ({ c with stage := .walk } : Chain).Within base { c' with stage := .walk } :=
    h.restage hne rfl
  simp only [Chain.follow, hc, hc'] at hwalk ⊢
  cases node with
  | none => exact .pure (.inl hwalk)
  | some id =>
    refine .bind _ fun next => .pure (.inl ?_)
    refine ⟨⟨⟨a, next, depth⟩ :: ws, rfl, ?_⟩, .same _, rfl, fun he => by cases he⟩
    exact .cons ⟨rfl, rfl⟩ hlike

lemma agree_reply (h : c.Within base c') (reply : Reply) :
    Op.Agree (Chain.Alike base) (c.reply reply) (c'.reply reply) := by
  obtain ⟨ws, hws, hlike⟩ := h.walks
  have hdeliver : ∀ vs, ({ c with stage := .deliver vs } : Chain).Alike base
      { c' with stage := .deliver vs } := by
    intro vs
    have halike := @alike_deliver base c c' _ _ hlike vs
    rwa [← hws] at halike
  cases reply with
  | results vs => exact .pure (hdeliver vs)
  | print line vs => exact .bind _ fun _ => .pure (hdeliver vs)
  | stop e => exact .throw e
  | call f args => exact .pure (.inl ⟨h.walks, .same _, rfl, fun _ => rfl⟩)

lemma agree_start (h : c.Within base c') (hlimit : p.config.maxCallDepth = none)
    (depth depth' : Nat) (callee : Callee) :
    Op.Agree (Chain.Alike base) (c.start p depth callee) (c'.start p depth' callee) := by
  cases callee with
  | declared a =>
    simp only [Chain.start, hlimit]
    obtain ⟨ws, hws, hlike⟩ := h.walks
    refine .pure (.inl ⟨⟨⟨a, a.entry, depth⟩ :: ws, ?_, .cons ⟨rfl, rfl⟩ hlike⟩, .same _, rfl, ?_⟩)
    · rw [Chain.enter, hws]
      rfl
    · intro he
      cases he
  | native name args =>
    simp only [Chain.start]
    cases p.natives.symbol? name with
    | some symbol => exact .get fun t => agree_reply h _
    | none => exact .throw _

/-- Where one kind of node will do, the walk is at a node. -/
lemma Fits.topmost {a : Activation} {node : Option NodeId} {depth : Nat} {ws : List Walk}
    {k : Kind} (h : c.Fits p) (hw : c.walks = ⟨a, node, depth⟩ :: ws)
    (hk : c.stage.kind? = some k) : ∃ id, node = some id := by
  obtain ⟨id, -, hid, -⟩ := h.stage k _ hk (by rw [hw]; rfl)
  exact ⟨id, hid⟩

/-- Results that are delivered inside a call are delivered to a node. -/
lemma agree_deliver (h : c.Within base c') (hfit : c'.Fits p) {vs : List Value}
    (hs : c'.stage = .deliver vs) :
    Op.Agree (Chain.Alike base) (c.deliver p vs) (c'.deliver p vs) := by
  have hne : c'.walks ≠ [] := h.walks_ne_nil (by rw [hs]; rfl)
  obtain ⟨a, node, depth, ws, depth', ws', hc, hc', -⟩ := h.topmost hne
  obtain ⟨id, rfl⟩ := hfit.topmost hc' (by rw [hs]; rfl)
  have hfollow : ({ c with stage := .follow } : Chain).Within base { c' with stage := .follow } :=
    h.restage hne rfl
  simp only [Chain.deliver, hc, hc'] at hfollow ⊢
  exact .bind _ fun _ => .pure (.inl hfollow)

lemma agree_received (h : c.Within base c') (hfit : c'.Fits p) {purpose : Purpose}
    {v : Option Value} (hs : c'.stage = .received purpose v) :
    Op.Agree (Chain.Alike base) (c.received p purpose v) (c'.received p purpose v) := by
  have hne : c'.walks ≠ [] := h.walks_ne_nil (by rw [hs]; rfl)
  obtain ⟨a, node, depth, ws, depth', ws', hc, hc', -⟩ := h.topmost hne
  obtain ⟨id, rfl⟩ := hfit.topmost hc' (by rw [hs]; rfl)
  have hfollow : ({ c with stage := .follow } : Chain).Within base { c' with stage := .follow } :=
    h.restage hne rfl
  simp only [Chain.received, hc, hc'] at hfollow ⊢
  cases purpose with
  | result => exact .bind _ fun _ => .pure (.inl hfollow)
  | visit next => exact .bind _ fun _ => .pure (.inl hfollow)

/-- Without a limit, a chain does the same inside a call as a chain does that begins with it. -/
theorem agree_advance (h : c.Within base c') (hfit : c'.Fits p)
    (hlimit : p.config.maxCallDepth = none) {step : Op Chain} (hs : c.advance p = some step) :
    ∃ step', c'.advance p = some step' ∧ Op.Agree (Chain.Alike base) step step' := by
  rcases h.stage_eq with he | ⟨depth, depth', callee, he, he'⟩
  · have hadvance : ∀ stage, c.stage = stage → c'.stage = stage := fun stage hstage =>
      he.symm.trans hstage
    simp only [Chain.advance] at hs
    split at hs
    case h_1 hstage =>
      cases hs
      exact ⟨_, by rw [Chain.advance, hadvance _ hstage], agree_walk h (hadvance _ hstage)⟩
    case h_2 hstage =>
      cases hs
      exact ⟨_, by rw [Chain.advance, hadvance _ hstage], agree_follow h (hadvance _ hstage)⟩
    case h_3 callee receiver args hstage =>
      cases hs
      refine ⟨_, by rw [Chain.advance, hadvance _ hstage], .bind _ fun bound => .pure (.inl ?_)⟩
      exact ⟨h.walks, .same _, rfl, fun _ => rfl⟩
    case h_4 depth callee hstage =>
      cases hs
      exact ⟨_, by rw [Chain.advance, hadvance _ hstage], agree_start h hlimit _ _ _⟩
    case h_5 vs hstage =>
      cases hs
      exact ⟨_, by rw [Chain.advance, hadvance _ hstage], agree_deliver h hfit (hadvance _ hstage)⟩
    case h_6 purpose v hstage =>
      cases hs
      exact ⟨_, by rw [Chain.advance, hadvance _ hstage], agree_received h hfit (hadvance _ hstage)⟩
    case h_7 message hstage =>
      cases hs
      exact ⟨_, by rw [Chain.advance, hadvance _ hstage], .throw _⟩
    case h_8 => cases hs
  · rw [Chain.advance, he] at hs
    cases hs
    exact ⟨_, by rw [Chain.advance, he'], agree_start h hlimit _ _ _⟩

end Chain

end Flowgraph
