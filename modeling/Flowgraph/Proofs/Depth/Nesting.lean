import Mathlib.Tactic.Common
import Flowgraph.Proofs.Drive

/-!
# How deep calls are nested

A function is started one deeper than the walk that calls it, and in no other way does a chain get
deeper. Where no node spawns, the chain of a host is on its own from its beginning to its end.
-/

namespace Flowgraph

/-- No node of a program spawns a task. -/
def Program.Spawnless (p : Program) : Prop := ∀ id n, p.node id = .ok n → n.kind ≠ .spawn

/-- A node that can be looked up is in the graph. -/
lemma Program.mem_nodes {p : Program} {id : NodeId} {n : Node} (h : p.node id = .ok n) :
    n ∈ p.graph.nodes := by
  simp only [Program.node, Graph.node] at h
  split at h
  case h_1 hn =>
    cases h
    exact Array.mem_of_getElem? hn
  case h_2 => cases h

lemma Program.spawnless_of_nodes {p : Program} (h : ∀ n ∈ p.graph.nodes, n.kind ≠ .spawn) :
    p.Spawnless := fun _ n hn => h n (Program.mem_nodes hn)

/-- The stages in which a chain is spawning a task. -/
def Stage.isSpawning : Stage → Bool
  | .spawn _ | .launch _ _ | .enlist _ => true
  | _ => false

/-- The stages in which a chain is starting a function. -/
def Stage.isStarting : Stage → Bool
  | .start _ _ => true
  | _ => false

/-- All activations of a chain are nested within a limit. -/
def Chain.Shallow (limit : Nat) (c : Chain) : Prop := ∀ w ∈ c.walks, w.depth ≤ limit

/-- What is known of a chain that a host begins, where no node spawns. -/
structure Chain.Direct (c : Chain) : Prop where
  task : c.task = none
  spawning : c.stage.isSpawning = false
  /-- A function is started one deeper than its caller, or nested in nothing. -/
  start : ∀ depth callee, c.stage = .start depth callee →
    depth = 1 ∨ ∃ w rest, c.walks = w :: rest ∧ depth = w.depth + 1

namespace Chain

variable {p : Program} {m : Machine} {c d : Chain} {s t : Store} {limit : Nat}

lemma direct_of_stage (ht : c.task = none) {walks : List Walk} {stage : Stage}
    (hspawn : stage.isSpawning = false) (hstart : stage.isStarting = false) :
    ({ c with walks := walks, stage := stage } : Chain).Direct :=
  ⟨ht, hspawn, fun depth callee hs => by cases hs; cases hstart⟩

lemma Direct.exit (h : c.Direct) (outcome : Outcome) : (c.exit outcome).Direct :=
  direct_of_stage h.task rfl rfl

lemma Direct.proceed (h : c.Direct) : c.proceed.Direct := by
  simp only [Chain.proceed]
  split_ifs
  · exact h.exit _
  · exact direct_of_stage h.task rfl rfl

lemma direct_hosted (h : c.Hosted) : c.Direct := by
  cases h <;> exact ⟨rfl, rfl, fun depth callee hs => by cases hs⟩

lemma Direct.restaged (h : c.Direct) (hr : m.Restaged c d) : d.Direct := by
  have hspawn := h.spawning
  cases hr with
  | reserved hs | launched hs => rw [hs] at hspawn; cases hspawn
  | enlisted hs | sent hs | awake hs => exact h.proceed
  | _ => exact direct_of_stage h.task rfl rfl

lemma Direct.stopChain (h : c.Direct) (e : Stop) : (Machine.stopChain c e).Direct := by
  cases e <;> exact direct_of_stage h.task rfl rfl

/-- A chain that started in a program without spawns goes on to spawn nothing. -/
lemma Direct.steps (h : c.Direct) (hp : p.Spawnless) (hsteps : c.Steps p s d t) : d.Direct := by
  cases hsteps with
  | @operation w rest id pending _ hs hw hn hperform =>
    obtain ⟨n, hnode, hfits⟩ := Program.fits_of_perform hperform
    cases pending with
    | call callee =>
      refine ⟨h.task, rfl, fun depth callee' hs => ?_⟩
      cases hs
      exact .inr ⟨w, rest, hw, rfl⟩
    | spawn callee => exact absurd hfits (hp id n hnode)
    | _ => exact direct_of_stage h.task rfl rfl
  | binding hs hbind =>
    refine ⟨h.task, rfl, fun depth callee hs => ?_⟩
    cases hs
    exact .inl rfl
  | _ => exact direct_of_stage h.task rfl rfl

/-! ### Getting deeper -/

/-- The walks of a chain go on at the same depths, or end. -/
def Level (c d : Chain) : Prop := ∀ w ∈ d.walks, ∃ w' ∈ c.walks, w.depth = w'.depth

lemma Level.of_walks (h : d.walks = c.walks) : c.Level d := fun w hw => ⟨w, h ▸ hw, rfl⟩

lemma level_exit (outcome : Outcome) : c.Level (c.exit outcome) := fun _ hw => by cases hw

lemma level_proceed : c.Level c.proceed := by
  simp only [proceed]
  split_ifs
  · exact level_exit _
  · exact .of_walks rfl

lemma Level.shallow (h : c.Level d) (hc : c.Shallow limit) : d.Shallow limit := by
  intro w hw
  obtain ⟨w', hw', hdepth⟩ := h w hw
  exact hdepth ▸ hc w' hw'

lemma level_restaged (hr : m.Restaged c d) : c.Level d := by
  cases hr with
  | refused | joined => exact level_exit _
  | enlisted | sent | awake => exact level_proceed
  | _ => exact .of_walks rfl

lemma level_stopChain (e : Stop) : c.Level (Machine.stopChain c e) := by
  cases e with
  | endless => exact .of_walks rfl
  | fault | panic => exact level_exit _

/-- A chain gets deeper only by starting a declared function. -/
lemma Steps.level (h : c.Steps p s d t) :
    c.Level d ∨ ∃ depth a, c.stage = .start depth (.declared a) ∧ d = c.enter a depth := by
  cases h with
  | enter hs hlimit => exact .inr ⟨_, _, hs, rfl⟩
  | nothing | handed | taken => exact .inl (level_exit _)
  | results hs hw hn hvs =>
    exact .inl fun w hw' => ⟨w, hw ▸ List.mem_cons_of_mem _ hw', rfl⟩
  | @edge a id depth rest next hs hw hnext =>
    refine .inl fun w hw' => ?_
    rcases List.mem_cons.mp hw' with rfl | hw'
    · exact ⟨⟨a, some id, depth⟩, hw ▸ List.mem_cons_self, rfl⟩
    · exact ⟨w, hw ▸ List.mem_cons_of_mem _ hw', rfl⟩
  | _ => exact .inl (.of_walks rfl)

end Chain

namespace Machine

variable {m : Machine} {x : ChainId} {c d : Chain} {limit : Nat} {mv : Move}

lemma direct_step (hp : m.program.Spawnless) (hc : m.chain? x = some c) (h : c.Direct)
    (hd : (m.step mv).chain? x = some d) : d.Direct := by
  cases next_of_step hc hd with
  | same => exact h
  | restaged hr => exact h.restaged hr
  | advanced _ ha hr => exact h.steps hp (Chain.steps_of_advance ha hr)
  | stopped => exact h.stopChain _

/-- A chain gets deeper only in its own move, and only by starting a declared function. -/
lemma deeper_step (hc : m.chain? x = some c) (hd : (m.step mv).chain? x = some d)
    (hlevel : ¬c.Level d) : mv = .run x ∧
      ∃ depth a, c.stage = .start depth (.declared a) ∧ d = c.enter a depth := by
  cases next_of_step hc hd with
  | same => exact absurd (.of_walks rfl) hlevel
  | restaged hr => exact absurd (Chain.level_restaged hr) hlevel
  | advanced hmv ha hr => exact ⟨hmv, (Chain.steps_of_advance ha hr).level.resolve_left hlevel⟩
  | stopped => exact absurd (Chain.level_stopChain _) hlevel

end Machine

end Flowgraph
