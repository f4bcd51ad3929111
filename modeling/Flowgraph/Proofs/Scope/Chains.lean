import Mathlib.Tactic.Common
import Flowgraph.Proofs.Scope.Operands
import Flowgraph.Proofs.Stages

/-!
# Chains in their scopes

Every activation works in a frame of its own scope, and everything that a chain has at hand is
known. Calls make frames, so what is said here of a step speaks of the scopes before and after
it.
-/

namespace Flowgraph

namespace Layout

variable {L : Layout} {p : Program} {σ σ' : Scopes} {α β : Type}

/-! ### Steps that make frames -/

/-- From every store that is as the scopes say, a computation leads to one that is as the scopes
say, with more of them if frames were made; its result has `P`, or its stop is sane. -/
def Upholds (L : Layout) (p : Program) (σ : Scopes) (x : Op α) (P : Scopes → α → Prop) : Prop :=
  ∀ s, L.Describes p σ s → match x s with
    | .ok a s' => ∃ σ', σ.Extends σ' ∧ L.Describes p σ' s' ∧ P σ' a
    | .error e s' => ∃ σ', σ.Extends σ' ∧ L.Describes p σ' s' ∧ e.Sane

variable {P Q : Scopes → α → Prop} {R : Scopes → β → Prop}

lemma Upholds.of_keeps {x : Op α} {K : α → Prop}
    (h : Op.Keeps (L.Describes p σ) Stop.Sane x K) (hP : ∀ a, K a → P σ a) :
    L.Upholds p σ x P := by
  intro s hs
  have hx := h s hs
  cases hxs : x s with
  | ok a s' =>
    rw [hxs] at hx
    exact ⟨σ, .refl σ, hx.1, hP a hx.2⟩
  | error e s' =>
    rw [hxs] at hx
    exact ⟨σ, .refl σ, hx.1, hx.2⟩

lemma Upholds.pure {a : α} (h : P σ a) : L.Upholds p σ (Pure.pure a) P :=
  fun _ hs => ⟨σ, .refl σ, hs, h⟩

lemma Upholds.throw {e : Stop} (h : e.Sane) :
    L.Upholds p σ (MonadExcept.throw e : Op α) P := fun _ hs => ⟨σ, .refl σ, hs, h⟩

lemma Upholds.bind {x : Op α} {next : α → Op β} (h : L.Upholds p σ x P)
    (hn : ∀ σ' a, σ.Extends σ' → P σ' a → L.Upholds p σ' (next a) R) :
    L.Upholds p σ (x >>= next) R := by
  intro s hs
  have hx := h s hs
  rw [Op.bind_apply]
  cases hxs : x s with
  | ok a s' =>
    rw [hxs] at hx
    obtain ⟨σ', hσ, hs', ha⟩ := hx
    have hnext := hn σ' a hσ ha s' hs'
    dsimp only
    cases hy : next a s' with
    | ok b s'' =>
      rw [hy] at hnext
      obtain ⟨σ'', hσ', hs'', hb⟩ := hnext
      exact ⟨σ'', hσ.trans hσ', hs'', hb⟩
    | error e s'' =>
      rw [hy] at hnext
      obtain ⟨σ'', hσ', hs'', he⟩ := hnext
      exact ⟨σ'', hσ.trans hσ', hs'', he⟩
  | error e s' =>
    rw [hxs] at hx
    exact hx

/-! ### Calls -/

/-- An activation works in a frame of its function's scope. -/
structure Activates (L : Layout) (p : Program) (σ : Scopes) (a : Activation) : Prop where
  frame : σ.of? a.frame = some (some a.decl)
  entry : ∀ e, a.entry = some e → L.scope e = some a.decl
  results : a.results ≤ p.scopeSize (some a.decl)

/-- Everything that a bound function needs is known. -/
def Binds (L : Layout) (p : Program) (σ : Scopes) : Callee → Prop
  | .declared a => L.Activates p σ a
  | .native _ args => ∀ v ∈ args, L.Knows σ v

lemma Binds.mono (h : σ.Extends σ') {callee : Callee} (hc : L.Binds p σ callee) :
    L.Binds p σ' callee := by
  cases callee with
  | declared a => exact ⟨h _ _ hc.frame, hc.entry, hc.results⟩
  | native name args => exact fun v hv => (hc v hv).mono h

variable (hL : L.Suits p) (hp : p.Loaded)

section Calls

include hL

lemma upholds_activate {decl : NodeId} {parent : FrameId} {receiver : Option Value}
    {args : List Value} (hparent : σ.of? parent = some (L.parent decl))
    (hr : ∀ v, receiver = some v → L.Knows σ v) (ha : ∀ v ∈ args, L.Knows σ v) :
    L.Upholds p σ (p.activate decl parent receiver args) (L.Binds p) := by
  intro s hs
  have hact := Program.activates p decl parent receiver args s
  have hadded : ∀ d s', p.definition decl = .ok d →
      Program.Added d parent receiver args s s' →
      L.Describes p (σ.push (some decl)) s' := by
    intro d s' hd hadd
    obtain ⟨slots, hf, rfl⟩ := hadd
    refine hs.withFrame hparent ?_ fun v hv => ?_
    · rw [hf.size, Program.scopeSize, hd]
    · rcases hf.content v hv with rfl | hv | hv
      · exact trivial
      · exact hr v hv
      · exact ha v hv
  cases hx : p.activate decl parent receiver args s with
  | ok callee s' =>
    rw [hx] at hact
    obtain ⟨d, hd, hadd, rfl⟩ := hact
    refine ⟨_, Scopes.extends_push σ _, hadded d s' hd hadd, ?_, fun e he => ?_, ?_⟩
    · rw [Store.nextFrame, Scopes.of?, ← hs.count, Array.getElem?_push_size]
    · exact (hL.definition hd).1 e he
    · have hresults := (hL.definition hd).2.2.2
      rwa [Program.scopeSize, hd]
  | error e s' =>
    rw [hx] at hact
    rcases hact with ⟨rfl, he⟩ | ⟨d, hd, hadd, -, i, hi, hle⟩
    · exact ⟨σ, .refl σ, hs, he⟩
    · rcases hi with hi | hi
      · have hlt := (hL.definition hd).2.1 i hi
        omega
      · have hlt := (hL.definition hd).2.2.1 i hi
        omega

lemma upholds_bindValues (hg : σ.of? globalFrame = some none) {callee : Value}
    {receiver : Option Value} {args : List Value} (hc : L.Knows σ callee)
    (hr : ∀ v, receiver = some v → L.Knows σ v) (ha : ∀ v ∈ args, L.Knows σ v) :
    L.Upholds p σ (p.bindValues callee receiver args) (L.Binds p) := by
  cases callee with
  | func decl env => exact upholds_activate hL (Knows.lexicalParent hg hc) hr ha
  | native name =>
    refine .pure fun v hv => ?_
    rcases List.mem_append.mp hv with hv | hv
    · exact hr v (Option.mem_toList.mp hv)
    · exact ha v hv
  | _ => exact .throw rfl

include hp

lemma upholds_bindCall {f : FrameId} {id : NodeId} {n : Node} (hn : p.node id = .ok n)
    (hf : σ.of? f = some (L.scope id)) (hk : n.kind = .call ∨ n.kind = .spawn) (op : String) :
    L.Upholds p σ (p.bindCall f id op) (L.Binds p) := by
  rw [Program.bindCall_eq]
  have hb := (regime hL hp hn hf).gives_bindingOf hk op
  have hfork := (hL id n hn).unforked hk
  intro s hs
  refine Upholds.bind (P := fun σ' b => σ' = σ ∧ b.Holds (L.Knows σ) f n)
    (.of_keeps (.look hb) fun b hb => ⟨rfl, hb⟩) (fun σ' b _ hb => ?_) s hs
  obtain ⟨rfl, hb⟩ := hb
  cases b with
  | declared decl parent receiver args =>
    obtain ⟨⟨env, henv, hparent⟩, hr, ha⟩ := hb
    rw [hfork] at hparent
    rw [hparent]
    exact upholds_activate hL (Knows.lexicalParent hs.top henv) hr ha
  | native name args => exact .pure hb

end Calls

/-! ### Walks and stages -/

/-- A walk goes through the scope that its frame belongs to: the global one, or the scope of its
function. -/
structure Goes (L : Layout) (p : Program) (σ : Scopes) (w : Walk) (S : Scope) : Prop where
  frame : σ.of? w.activation.frame = some S
  scope : S = none ∨ S = some w.activation.decl
  node : ∀ id, w.node = some id → L.scope id = S
  results : w.activation.results ≤ p.scopeSize S

/-- A walk goes through its scope. -/
def Treads (L : Layout) (p : Program) (σ : Scopes) (w : Walk) : Prop := ∃ S, L.Goes p σ w S

lemma Treads.mono (h : σ.Extends σ') {w : Walk} (hw : L.Treads p σ w) : L.Treads p σ' w := by
  obtain ⟨S, hS⟩ := hw
  exact ⟨S, h _ _ hS.frame, hS.scope, hS.node, hS.results⟩

lemma Treads.frame {w : Walk} (hw : L.Treads p σ w) {id : NodeId} (hid : w.node = some id) :
    σ.of? w.activation.frame = some (L.scope id) := by
  obtain ⟨S, hS⟩ := hw
  rw [hS.frame, hS.node id hid]

/-- Results are known, and a chain that was aborted was not aborted at an address. -/
def Concludes (L : Layout) (σ : Scopes) : Outcome → Prop
  | .ok vs => ∀ v ∈ vs, L.Knows σ v
  | .error e => e.Sane

/-- Everything that a stage has at hand is known. -/
def Stages (L : Layout) (p : Program) (σ : Scopes) : Stage → Prop
  | .call callee receiver args =>
    L.Knows σ callee ∧ (∀ v, receiver = some v → L.Knows σ v) ∧ ∀ v ∈ args, L.Knows σ v
  | .start _ callee | .spawn callee | .launch _ callee => L.Binds p σ callee
  | .deliver vs => ∀ v ∈ vs, L.Knows σ v
  | .send _ v _ => L.Knows σ v
  | .receive _ purpose _ => purpose.Holds (L.Knows σ)
  | .received purpose v => purpose.Holds (L.Knows σ) ∧ ∀ w, v = some w → L.Knows σ w
  | .exit outcome | .leave outcome | .ended outcome => L.Concludes σ outcome
  | _ => True

/-- All walks of a chain go through their scopes, and everything that its stage has at hand is
known. -/
structure Carries (L : Layout) (p : Program) (σ : Scopes) (c : Chain) : Prop where
  walks : ∀ w ∈ c.walks, L.Treads p σ w
  stage : L.Stages p σ c.stage

lemma holds_mono (h : σ.Extends σ') {purpose : Purpose} (hp : purpose.Holds (L.Knows σ)) :
    purpose.Holds (L.Knows σ') := by
  cases purpose with
  | result => exact trivial
  | visit next => exact Knows.mono h hp

lemma Concludes.mono (h : σ.Extends σ') {outcome : Outcome} (ho : L.Concludes σ outcome) :
    L.Concludes σ' outcome := by
  cases outcome with
  | ok vs => exact fun v hv => (ho v hv).mono h
  | error e => exact ho

lemma Stages.mono (h : σ.Extends σ') {stage : Stage} (hs : L.Stages p σ stage) :
    L.Stages p σ' stage := by
  cases stage with
  | call callee receiver args =>
    exact ⟨hs.1.mono h, fun v hv => (hs.2.1 v hv).mono h, fun v hv => (hs.2.2 v hv).mono h⟩
  | start depth callee => exact Binds.mono h hs
  | spawn callee => exact Binds.mono h hs
  | launch task callee => exact Binds.mono h hs
  | deliver vs => exact fun v hv => (hs v hv).mono h
  | send ch v phase => exact Knows.mono h hs
  | receive ch purpose phase => exact holds_mono h hs
  | received purpose v => exact ⟨holds_mono h hs.1, fun w hw => (hs.2 w hw).mono h⟩
  | exit outcome => exact Concludes.mono h hs
  | leave outcome => exact Concludes.mono h hs
  | ended outcome => exact Concludes.mono h hs
  | _ => exact trivial

lemma Carries.mono (h : σ.Extends σ') {c : Chain} (hc : L.Carries p σ c) : L.Carries p σ' c :=
  ⟨fun w hw => (hc.walks w hw).mono h, hc.stage.mono h⟩

variable {c c' : Chain}

lemma carries_exit {outcome : Outcome} (h : L.Concludes σ outcome) :
    L.Carries p σ (c.exit outcome) := ⟨fun _ hw => absurd hw List.not_mem_nil, h⟩

lemma Carries.restage (h : L.Carries p σ c) {stage : Stage} (hs : L.Stages p σ stage) :
    L.Carries p σ { c with stage := stage } := ⟨h.walks, hs⟩

lemma Carries.proceed (h : L.Carries p σ c) : L.Carries p σ c.proceed := by
  simp only [Chain.proceed]
  split_ifs
  · exact carries_exit fun v hv => absurd hv List.not_mem_nil
  · exact h.restage trivial

lemma Carries.stopChain (h : L.Carries p σ c) {e : Stop} (he : e.Sane) :
    L.Carries p σ (Machine.stopChain c e) := by
  cases e with
  | endless => exact h.restage trivial
  | fault f => exact carries_exit he
  | panic text => exact carries_exit he

end Layout

end Flowgraph
