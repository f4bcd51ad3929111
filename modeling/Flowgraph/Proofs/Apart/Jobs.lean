import Flowgraph.Proofs.Apart.Binding
import Flowgraph.Proofs.Apart.Turns

/-!
# Jobs that keep apart

A job is a call in the global frame. There is one node that makes the call, and another one that
spawns a task to make it. Jobs keep apart when what one writes is neither read nor written by
another one, nor read where a later one is bound.
-/

namespace Flowgraph

open Named Store

variable {p : Program} {s s' s₀ t u : Store} {c d e : Chain} {id g : NodeId} {π ρ : Renaming}
  {A : Set Location}

/-- A value that can be called. -/
def Value.IsFunction : Value → Prop
  | .func _ _ | .native _ => True
  | _ => False

namespace Program

/-! ### Two nodes for a call -/

/-- One node spawns what the other one calls. Nothing comes after either of them, and the results of
the call are dropped. -/
structure Pair (p : Program) (g c : NodeId) : Prop where
  nodes : ∃ n n', p.node g = .ok n ∧ p.node c = .ok n' ∧ n.kind = .spawn ∧ n'.kind = .call ∧
    n'.children = n.children ∧ n'.payload = n.payload ∧ n'.slot = none
  lastSpawn : p.Last g
  lastCall : p.Last c

/-- The callee of a node is a function, in every store that looks the same from some locations. -/
def Callable (p : Program) (A : Set Location) (s : Store) (id : NodeId) : Prop :=
  ∃ operand v, p.child id 0 = .ok operand ∧ v.IsFunction ∧
    ∀ t, View .id A s t → p.value globalFrame operand t = .ok v

/-- A function is bound in the same way for both nodes. -/
lemma Pair.bindingOf_eq (h : p.Pair g id) (hcallable : p.Callable A s id) (hview : View .id A s t) :
    p.bindingOf globalFrame g "go" t = p.bindingOf globalFrame id "call" t := by
  obtain ⟨n, n', hn, hn', -, -, hchildren, hpayload, -⟩ := h.nodes
  obtain ⟨operand, v, hoperand, hfunction, hvalue⟩ := hcallable
  have hv := hvalue t hview
  have hfork : n'.isFork = n.isFork := by rw [Node.isFork, Node.isFork, hpayload]
  have hoperand' : p.child g 0 = .ok operand := by
    simp only [child, hn, hn', Node.child?, hchildren, bind, Except.bind] at hoperand ⊢
    cases hc : n.children[0]? with
    | some a =>
      rw [hc] at hoperand
      exact hoperand
    | none =>
      rw [hc] at hoperand
      cases hoperand
  have hlift : ∀ {γ : Type} (a : γ), (liftM (Except.ok a : Except Stop γ) : Look γ) = pure a :=
    fun _ => rfl
  have hbind : ∀ f : Value → Look Binding, (p.value globalFrame operand >>= f) t = f v t := by
    intro f
    simp only [bind, ReaderT.bind, hv, Except.bind]
  simp only [bindingOf, hn, hn', hoperand, hoperand', hlift, pure_bind]
  cases p.receiverPart operand with
  | error e => rfl
  | ok part =>
    simp only [hlift, pure_bind, hbind, hchildren, hfork]
    cases v with
    | func | native => rfl
    | _ => exact hfunction.elim

/-! ### Where a call begins -/

/-- Where a call in the global frame begins once it is bound, or ends if it cannot be bound. -/
def entry (p : Program) (s : Store) (id : NodeId) : Chain × Store :=
  match p.bindCall globalFrame id "call" s with
  | .ok callee s => ({ stage := .start 1 callee }, s)
  | .error e s => (Machine.stopChain { stage := .walk } e, s)

/-- What there is at the beginning of a call has been given names. -/
lemma sound_entry (hp : p.Loaded) (hs : s.Closed) (id : NodeId) :
    s.Grows (p.entry s id).2 ∧ (p.entry s id).2.Closed ∧
      Within (p.entry s id).2.size (p.entry s id).1 ∧ (p.entry s id).1.Regular p := by
  have hfollows : ∀ π : Renaming, π.Injective → rename π globalFrame = globalFrame →
      Op.Follows π (p.bindCall globalFrame id "call") (p.bindCall globalFrame id "call") := by
    intro π _ hg
    have h := follows_bindCall hg hp globalFrame id "call"
    rwa [hg] at h
  obtain ⟨hgrows, hclosed, hwithin⟩ := Op.closed_of_follows hfollows hs
  rw [Op.after] at hgrows hclosed
  rw [entry]
  cases hb : p.bindCall globalFrame id "call" s with
  | ok callee s' =>
    rw [hb] at hgrows hclosed
    have hcallee := hwithin callee s' hb
    refine ⟨hgrows, hclosed, fun T k hk => ?_, Chain.regular_of_walks rfl rfl⟩
    rcases hk with ⟨w, hw, -⟩ | hk
    · cases hw
    · exact hcallee T k hk
  | error e s' =>
    rw [hb] at hgrows hclosed
    refine ⟨hgrows, hclosed, fun T k hk => ?_, Chain.regular_of_walks ?_ ?_⟩
    · cases e with
      | endless => rcases hk with ⟨w, hw, -⟩ | hk <;> [cases hw; cases hk]
      | fault | panic => rcases hk with ⟨w, hw, -⟩ | ⟨w, hw, -⟩ <;> cases hw
    all_goals cases e <;> rfl

end Program

namespace Chain

/-- What a chain comes to by itself mentions no names but those that have been given out. -/
lemma Comes.sound (hp : p.Loaded) (hn : p.natives.Blind) (h : d.Comes p s e u) (hs : s.Closed)
    (hd : Flowgraph.Within s.size d) (hr : d.Regular p) :
    s.Grows u ∧ u.Closed ∧ Flowgraph.Within u.size e ∧ e.Regular p := by
  induction h with
  | start => exact ⟨.refl s, hs, hd, hr⟩
  | next _ hnext ih =>
    obtain ⟨hgrows, hclosed, hwithin, hregular⟩ := ih
    obtain ⟨hgrows', hclosed', hwithin'⟩ := closed_next hp hn hnext hclosed hwithin
    exact ⟨hgrows.trans hgrows', hclosed', hwithin', hregular.next hnext⟩

/-! ### Renamed chains -/

lemma isSolo_rename (stage : Stage) : (rename π stage).isSolo = stage.isSolo := by
  cases stage <;> rfl

lemma exit_rename_iff : (∃ o, (Named.rename π c).stage = .exit o) ↔ ∃ o, c.stage = .exit o := by
  have hstage : (Named.rename π c).stage = Named.rename π c.stage := rfl
  rw [hstage]
  cases c.stage <;> simp [Named.rename]

lemma Regular.rename (h : c.Regular p) (π : Renaming) : (rename π c).Regular p where
  fits := by
    have hat : ∀ k (w : Walk), w.At p k → (Named.rename π w).At p k := fun _ _ hw => hw
    constructor
    · intro w hw
      have hw : w ∈ (c.walks.map (Named.rename π)).tail := hw
      rw [← List.map_tail] at hw
      obtain ⟨v, hv, rfl⟩ := List.mem_map.mp hw
      exact hat _ _ (h.fits.suspended v hv)
    · intro k w hk hw
      have hw : (c.walks.map (Named.rename π)).head? = some w := hw
      rw [List.head?_map] at hw
      obtain ⟨v, hv, rfl⟩ := Option.map_eq_some_iff.mp hw
      refine hat _ _ (h.fits.stage k v ?_ hv)
      have hk : (Named.rename π c.stage).kind? = some k := hk
      cases hs : c.stage
      case receive | received =>
        rw [hs] at hk
        rename_i purpose _
        cases purpose <;> exact hk
      all_goals
        rw [hs] at hk
        exact hk
  walking he := by
    have hstage : c.stage.isWalking = true := by
      have he : (Named.rename π c.stage).isWalking = true := he
      cases hs : c.stage <;> rw [hs] at he <;> first | rfl | cases he
    intro hw
    have hw : c.walks.map (Named.rename π) = [] := hw
    exact h.walking hstage (List.map_eq_nil_iff.mp hw)

end Chain

/-! ### Jobs -/

/-- A number of jobs, which begin with a machine. Each has a node that spawns and one that calls,
the locations that its body reads and writes, and those that are read where it is bound. -/
structure Jobs where
  start : Machine
  count : Nat
  spawn : Nat → NodeId
  call : Nat → NodeId
  footprint : Nat → Footprint
  operands : Nat → Set Location

namespace Jobs

/-- Where a job begins. -/
def entry (J : Jobs) (i : Nat) : Chain × Store := J.start.program.entry J.start.store (J.call i)

/-- The jobs keep apart: what one writes is neither read nor written by others, nor read where a
later one is bound. Bodies end, and need nobody else. -/
structure Independent (J : Jobs) : Prop where
  pair : ∀ i < J.count, J.start.program.Pair (J.spawn i) (J.call i)
  callable : ∀ i < J.count, J.start.program.Callable (J.operands i) J.start.store (J.call i)
  bound : ∀ i < J.count, Look.Confined (J.operands i)
    (J.start.program.bindingOf globalFrame (J.call i) "call") J.start.store
  contained : ∀ i < J.count, (J.entry i).1.Contained J.start.program J.start.store
    (J.footprint i) (J.entry i).2
  apart : ∀ i < J.count, ∀ j < J.count, i ≠ j → (J.footprint i).Spares (J.footprint j)
  later : ∀ i j, i < j → j < J.count → ∀ l ∈ (J.footprint i).writes, l ∉ J.operands j

end Jobs

end Flowgraph
