import Mathlib.Tactic.Common
import Flowgraph.Proofs.Depth.Nesting
import Flowgraph.Proofs.Halting.Forward

/-!
# How much a chain has left to do

Where calls are nested only up to a limit and code goes only forward, a chain has only so much left
to do: a walk has at most the nodes below the one it is at, and each of them at most calls a
function, nested one deeper.
-/

namespace Flowgraph

/-! ### A bound on what is left -/

/-- What the bound is made of: the rank of each node, a rank that no node is above, and how deep
calls may be nested. -/
structure Span where
  rank : NodeId → Nat
  most : Nat
  limit : Nat

namespace Span

variable (S : Span) {w : Walk} {walks : List Walk} {depth : Nat}

/-- A bound on what it takes to get past a node, when calls may be nested so much deeper. -/
def visit : Nat → Nat
  | 0 => 7
  | room + 1 => (S.most + 1) * visit room + 9

/-- A bound on what it takes to get past a node of a walk. -/
def node (w : Walk) : Nat := S.visit (S.limit - w.depth)

/-- A bound on what a walk takes once its node is done. -/
def after (w : Walk) : Nat :=
  match w.node with
  | none => 6
  | some id => S.rank id * S.node w + 6

/-- A bound on what a walk takes whose node is still to be done. -/
def before (w : Walk) : Nat :=
  match w.node with
  | none => 6
  | some _ => S.after w + S.node w

/-- A bound on what the activation of a function takes. -/
def activation (depth : Nat) : Nat :=
  if depth ≤ S.limit then (S.most + 1) * S.visit (S.limit - depth) + 7 else 3

/-- A bound on what suspended walks take. -/
def suspended (walks : List Walk) : Nat := (walks.map S.after).sum

/-- A bound on how many steps a chain has left, in those stages in which it is on its own. -/
def left (c : Chain) : Nat :=
  match c.stage with
  | .walk =>
    match c.walks with
    | [] => 3
    | w :: rest => S.before w + S.suspended rest
  | .follow => S.suspended c.walks + 4
  | .deliver _ | .sleep _ => S.suspended c.walks + 5
  | .pause _ => S.suspended c.walks + 6
  | .start depth _ => S.suspended c.walks + S.activation depth
  | .call _ _ _ => S.suspended c.walks + S.activation 1 + 1
  | .exit _ => 2
  | .leave _ => 1
  | _ => 0

@[simp] lemma suspended_nil : S.suspended [] = 0 := rfl

@[simp] lemma suspended_cons : S.suspended (w :: walks) = S.after w + S.suspended walks := rfl

@[simp] lemma after_none (a : Activation) : S.after ⟨a, none, depth⟩ = 6 := rfl

@[simp] lemma after_some (a : Activation) (id : NodeId) :
    S.after ⟨a, some id, depth⟩ = S.rank id * S.visit (S.limit - depth) + 6 := rfl

@[simp] lemma before_none (a : Activation) : S.before ⟨a, none, depth⟩ = 6 := rfl

@[simp] lemma before_some (a : Activation) (id : NodeId) : S.before ⟨a, some id, depth⟩ =
    S.rank id * S.visit (S.limit - depth) + 6 + S.visit (S.limit - depth) := rfl

lemma le_after (w : Walk) : 6 ≤ S.after w := by
  simp only [after]
  split <;> omega

lemma le_visit (room : Nat) : 7 ≤ S.visit room := by
  cases room <;> simp [visit]

lemma le_activation (depth : Nat) : 3 ≤ S.activation depth := by
  simp only [activation]
  split_ifs <;> omega

lemma le_before (w : Walk) : 6 ≤ S.before w := by
  simp only [before]
  split
  · exact Nat.le_refl _
  · exact Nat.le_add_right_of_le (S.le_after w)

/-- A call from a walk takes less than the node that calls. -/
lemma activation_lt_node (h : w.depth ≤ S.limit) : S.activation (w.depth + 1) + 1 < S.node w := by
  simp only [activation, node]
  split_ifs with hdeeper
  · have hroom : S.limit - w.depth = S.limit - (w.depth + 1) + 1 := by omega
    rw [hroom, visit]
    omega
  · have hroom : S.limit - w.depth = 0 := by omega
    simp [hroom, visit]

/-- The walk of an activation takes less than the activation. -/
lemma before_lt_activation (hmost : ∀ id, S.rank id ≤ S.most) (h : depth ≤ S.limit)
    (a : Activation) : S.before ⟨a, a.entry, depth⟩ < S.activation depth := by
  rw [activation, if_pos h]
  cases a.entry with
  | none => simp
  | some id =>
    have hle := Nat.mul_le_mul_right (S.visit (S.limit - depth)) (hmost id)
    rw [before_some, Nat.add_mul, Nat.one_mul]
    omega

/-- At a successor, a walk has at most as much to do as was left once its node was done. -/
lemma before_le_after {a : Activation} {id : NodeId} {next : Option NodeId}
    (h : ∀ b, next = some b → S.rank b < S.rank id) :
    S.before ⟨a, next, depth⟩ ≤ S.after ⟨a, some id, depth⟩ := by
  cases next with
  | none => exact S.le_after _
  | some b =>
    have hle := Nat.mul_le_mul_right (S.visit (S.limit - depth)) (Nat.succ_le_of_lt (h b rfl))
    rw [Nat.succ_mul] at hle
    rw [before_some, after_some]
    omega

/-- Nodes take less and less, and calls are nested up to the limit. -/
structure Measures (p : Program) : Prop where
  limit : p.config.maxCallDepth = some S.limit
  most : ∀ id, S.rank id ≤ S.most
  successor : ∀ a b, p.graph.Succeeds a b → S.rank b < S.rank a
  kinds : ∀ id n, p.node id = .ok n → n.kind ∉ Graph.restless

end Span

lemma Graph.Forward.exists_span {p : Program} (h : p.graph.Forward) {limit : Nat}
    (hlimit : p.config.maxCallDepth = some limit) : ∃ S : Span, S.limit = limit ∧ S.Measures p := by
  obtain ⟨rank, hmost, hsucc⟩ := h.exists_rank
  refine ⟨⟨rank, p.graph.nodes.size, limit⟩, rfl, hlimit, hmost, hsucc, fun id n hn => ?_⟩
  exact h.kinds n (Program.mem_nodes hn)

/-! ### Steps of a chain -/

/-- The stages in which a chain waits for nobody, and starts nothing but functions. -/
def Stage.isSteady : Stage → Bool
  | .walk | .follow | .call _ _ _ | .start _ _ | .deliver _ | .pause _ | .sleep _ => true
  | .exit _ | .leave _ | .ended _ => true
  | _ => false

/-- A chain that is on its own, at most as deep as the limit allows. -/
structure Chain.Steady (S : Span) (c : Chain) : Prop where
  shallow : c.Shallow S.limit
  stage : c.stage.isSteady = true

/-- A chain has less left to do than another one. -/
def Chain.Nears (S : Span) (c d : Chain) : Prop := d.Steady S ∧ S.left d < S.left c

/-- A chain is about to start a native. -/
def Chain.StartsNative (p : Program) (c : Chain) : Prop :=
  ∃ depth name args symbol, c.stage = .start depth (.native name args) ∧
    p.natives.symbol? name = some symbol

namespace Chain

variable {S : Span} {p : Program} {c d : Chain} {s t : Store} {f : FrameId} {id : NodeId}

lemma steady_exit (outcome : Outcome) : (c.exit outcome).Steady S :=
  ⟨fun _ hw => absurd hw List.not_mem_nil, rfl⟩

lemma Steady.restage (h : c.Steady S) {stage : Stage} (hs : stage.isSteady = true) :
    ({ c with stage := stage } : Chain).Steady S := ⟨h.shallow, hs⟩

lemma Steady.proceed (h : c.Steady S) : c.proceed.Steady S := by
  simp only [Chain.proceed]
  split_ifs
  · exact steady_exit _
  · exact h.restage rfl

lemma left_proceed_le : S.left c.proceed ≤ S.suspended c.walks + 4 := by
  simp only [Chain.proceed]
  split_ifs
  · have hexit : S.left (c.exit (.ok [])) = 2 := rfl
    omega
  · exact Nat.le_refl _

/-- What a node leaves to be done where nothing restless is. -/
lemma steady_stageAfter {pending : Pending} {k : Kind} (hk : k ∉ Graph.restless)
    (h : pending.Fits k) (depth : Nat) : (stageAfter depth pending).isSteady = true := by
  cases pending with
  | send c v =>
    cases h
    exact absurd (by decide) hk
  | receive c purpose =>
    cases h
    cases purpose <;> exact absurd (by simp [Purpose.kind, Graph.restless]) hk
  | spawn callee =>
    cases h
    exact absurd (by decide) hk
  | _ => rfl

/-- The edges of a node lead to its successors. -/
lemma succeeds_of_successor {next : Option NodeId} (h : p.successor f id s = .ok next) :
    ∀ b, next = some b → p.graph.Succeeds id b := by
  have hgives : Look.Gives (fun _ => True) (fun _ => True) (p.successor f id)
      fun next => ∀ b, next = some b → p.graph.Succeeds id b := by
    refine .bind (.lift (ends_any _)) fun n hn => ?_
    cases ho : n.otherwise with
    | none => exact .pure fun b hb => ⟨n, Program.node_eq_ok.mp hn, .inl hb⟩
    | some whenFalse =>
      refine .bind (Look.gives_any _) fun v _ => .bind (Look.gives_any _) fun b _ => ?_
      split_ifs
      · exact .pure fun b hb => ⟨n, Program.node_eq_ok.mp hn, .inl hb⟩
      · exact .pure fun b hb => ⟨n, Program.node_eq_ok.mp hn, .inr (ho.trans hb)⟩
  have hsucceeds := hgives s trivial
  rwa [h] at hsucceeds

lemma nears_exit (h : 2 < S.left c) (outcome : Outcome) : c.Nears S (c.exit outcome) :=
  ⟨steady_exit outcome, h⟩

section Steps

variable (h : c.Steady S) (hS : S.Measures p)

include h

/-- A walk that has come to its end leaves less to do, for its results only have to be handed on. -/
lemma Steady.nears_results {w : Walk} {rest : List Walk} (hs : c.stage = .walk)
    (hw : c.walks = w :: rest) (vs : List Value) :
    c.Nears S { c with walks := rest, stage := .deliver vs } := by
  refine ⟨⟨fun w' hw' => h.shallow w' (hw ▸ List.mem_cons_of_mem w hw'), rfl⟩, ?_⟩
  have hbefore := S.le_before w
  simp only [Span.left, hs, hw]
  omega

lemma Steady.nears_nowhere (hs : c.stage = .follow)
    (hw : ∀ a id depth rest, c.walks ≠ ⟨a, some id, depth⟩ :: rest) :
    c.Nears S { c with stage := .walk } := by
  have hleft : S.left c = S.suspended c.walks + 4 := by simp only [Span.left, hs]
  refine ⟨h.restage rfl, ?_⟩
  rw [hleft]
  cases hwalks : c.walks with
  | nil => simp [Span.left]
  | cons w rest =>
    obtain ⟨a, node, depth⟩ := w
    cases node with
    | some id => exact absurd hwalks (hw a id depth rest)
    | none => simp [Span.left]

include hS

/-- What a node leaves to be done is less than to perform it. -/
lemma Steady.nears_operation {w : Walk} {rest : List Walk} {pending : Pending}
    (hs : c.stage = .walk) (hw : c.walks = w :: rest) (hn : w.node = some id)
    (hperform : p.perform w.activation.frame id s = .ok pending t) :
    c.Nears S { c with stage := stageAfter w.depth pending } := by
  have hleft : S.left c = S.before w + S.suspended rest := by simp only [Span.left, hs, hw]
  have hbefore : S.before w = S.after w + S.node w := by simp only [Span.before, hn]
  have hcall := S.activation_lt_node (h.shallow w (hw ▸ List.mem_cons_self))
  have hnode : 7 ≤ S.node w := S.le_visit _
  obtain ⟨n, hnode', hfits⟩ := Program.fits_of_perform hperform
  have hsteady := steady_stageAfter (hS.kinds id n hnode') hfits w.depth
  refine ⟨h.restage hsteady, ?_⟩
  rw [hleft]
  cases pending with
  | done | sleep | call =>
    simp only [stageAfter, Span.left, hw, Span.suspended_cons]
    omega
  | send | receive | spawn => cases hsteady

/-- An edge leads to nodes after which less is left to be done. -/
lemma Steady.nears_edge {a : Activation} {depth : Nat} {rest : List Walk} {next : Option NodeId}
    (hs : c.stage = .follow) (hw : c.walks = ⟨a, some id, depth⟩ :: rest)
    (hnext : p.successor a.frame id s = .ok next) :
    c.Nears S { c with walks := ⟨a, next, depth⟩ :: rest, stage := .walk } := by
  have hleft : S.left c = S.suspended c.walks + 4 := by simp only [Span.left, hs]
  have hle : S.before ⟨a, next, depth⟩ ≤ S.after ⟨a, some id, depth⟩ :=
    S.before_le_after fun b hb => hS.successor id b (succeeds_of_successor hnext b hb)
  refine ⟨⟨fun w hw' => ?_, rfl⟩, ?_⟩
  · rcases List.mem_cons.mp hw' with rfl | hw'
    · exact h.shallow ⟨a, some id, depth⟩ (hw ▸ List.mem_cons_self)
    · exact h.shallow w (hw ▸ List.mem_cons_of_mem _ hw')
  · rw [hleft, hw, Span.suspended_cons]
    simp only [Span.left]
    omega

/-- A function that is entered has its nodes left to be done, and these are less than the call. -/
lemma Steady.nears_enter {depth : Nat} {a : Activation} (hs : c.stage = .start depth (.declared a))
    (hlimit : ∀ limit, p.config.maxCallDepth = some limit → depth ≤ limit) :
    c.Nears S (c.enter a depth) := by
  have hdepth := hlimit S.limit hS.limit
  refine ⟨⟨fun w hw => ?_, rfl⟩, ?_⟩
  · rcases List.mem_cons.mp hw with rfl | hw
    · exact hdepth
    · exact h.shallow w hw
  · have hlt := S.before_lt_activation hS.most hdepth a
    simp only [Span.left, enter, hs]
    omega

/-- Every step that a steady chain makes by itself leaves it less to do. -/
theorem Steady.nears (hnative : ¬c.StartsNative p) (hsteps : c.Steps p s d t) : c.Nears S d := by
  cases hsteps with
  | nothing hs hw => exact nears_exit (by simp [Span.left, hs, hw]) _
  | results hs hw hn hvs => exact h.nears_results hs hw _
  | operation hs hw hn hperform => exact h.nears_operation hS hs hw hn hperform
  | edge hs hw hnext => exact h.nears_edge hS hs hw hnext
  | nowhere hs hw => exact h.nears_nowhere hs hw
  | binding hs hbind =>
    refine ⟨h.restage rfl, ?_⟩
    simp only [Span.left, hs]
    exact Nat.lt_succ_self _
  | enter hs hlimit => exact h.nears_enter hS hs hlimit
  | native hs hname | print hs hname | call hs hname =>
    exact absurd ⟨_, _, _, _, hs, hname⟩ hnative
  | copy hs hw hstore =>
    refine ⟨h.restage rfl, ?_⟩
    simp only [Span.left, hs]
    exact Nat.lt_succ_self _
  | handed hs hw => exact nears_exit (by simp only [Span.left, hs]; omega) _
  | storing hs | visiting hs | taken hs =>
    have hsteady := h.stage
    rw [hs] at hsteady
    cases hsteady

omit hS

/-- A steady chain that makes steps by itself is not about to end. -/
lemma Steady.lt_left {step : Op Chain} (ha : c.advance p = some step) : 2 < S.left c := by
  have hsteady := h.stage
  simp only [Chain.advance] at ha
  split at ha
  case h_1 hs =>
    simp only [Span.left, hs]
    split
    · decide
    · exact Nat.lt_add_right _ (Nat.lt_of_lt_of_le (by decide) (S.le_before _))
  case h_2 hs => simp only [Span.left, hs]; omega
  case h_3 hs => simp only [Span.left, hs]; have := S.le_activation 1; omega
  case h_4 depth _ hs => simp only [Span.left, hs]; have := S.le_activation depth; omega
  case h_5 hs => simp only [Span.left, hs]; omega
  case h_6 hs => rw [hs] at hsteady; cases hsteady
  case h_7 hs => rw [hs] at hsteady; cases hsteady
  case h_8 => cases ha

/-- What others see of a steady chain's steps leaves it less to do, too. -/
lemma Steady.nears_restaged {m : Machine} (hr : m.Restaged c d) : c.Nears S d := by
  have hsteady := h.stage
  cases hr with
  | asleep hs =>
    refine ⟨h.restage rfl, ?_⟩
    simp only [Span.left, hs]
    exact Nat.lt_succ_self _
  | awake hs =>
    refine ⟨h.proceed, Nat.lt_of_le_of_lt left_proceed_le ?_⟩
    simp only [Span.left, hs]
    exact Nat.lt_succ_self _
  | leaving hs | ended hs =>
    refine ⟨h.restage rfl, ?_⟩
    simp only [Span.left, hs]
    decide
  | sending _ hs | refused hs | sent hs | receiving _ hs | received hs | reserved hs | launched hs
  | denied hs | withdrawn hs | enlisted hs | joining hs | joined hs =>
    rw [hs] at hsteady
    cases hsteady

end Steps

end Chain

end Flowgraph
