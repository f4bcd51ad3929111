import Flowgraph.Proofs.Streams.Course

/-!
# How chains come to nodes

A chain that comes to a node begins to walk there, or goes back to the walk below. A chain that can
make a step by itself does so when it runs, and nothing else is made of it.
-/

namespace Flowgraph

namespace Chain

variable {p : Program} {c c' : Chain} {s t : Store}

/-- A chain is where it was, begins to walk, goes back to the walk below, or is nowhere. -/
def Arrives (c c' : Chain) : Prop :=
  c'.at? = c.at? ∨ c'.stage = .walk ∨ c'.walks = c.walks.tail ∨ c'.at? = none

lemma at?_of_walks (h : c'.walks = c.walks) : c'.at? = c.at? := by rw [at?, at?, h]

lemma arrives_stage (c : Chain) (stage : Stage) : c.Arrives { c with stage := stage } :=
  .inl (at?_of_walks rfl)

lemma arrives_exit (c : Chain) (outcome : Outcome) : c.Arrives (c.exit outcome) :=
  .inr (.inr (.inr rfl))

lemma arrives_proceed (c : Chain) : c.Arrives c.proceed := by
  simp only [proceed]
  split_ifs
  · exact arrives_exit c _
  · exact arrives_stage c _

lemma arrives_stopChain (c : Chain) (e : Stop) : c.Arrives (Machine.stopChain c e) := by
  cases e with
  | endless => exact arrives_stage c _
  | fault f => exact arrives_exit c _
  | panic text => exact arrives_exit c _

lemma arrives_restaged {m : Machine} (h : m.Restaged c c') : c.Arrives c' := by
  cases h with
  | refused => exact arrives_exit c _
  | sent => exact arrives_proceed c
  | awake => exact arrives_proceed c
  | enlisted => exact arrives_proceed c
  | joined => exact arrives_exit c _
  | _ => exact arrives_stage c _

/-- What protocols make something of makes no step by itself. -/
lemma advance_of_restaged {m : Machine} (h : m.Restaged c c') : c.advance p = none := by
  cases h <;> simp_all only [Chain.advance]

lemma Steps.arrives (h : c.Steps p s c' t) : c.Arrives c' := by
  cases h with
  | nothing | handed | taken => exact arrives_exit c _
  | results hs hw => exact .inr (.inr (.inl (by rw [hw]; rfl)))
  | edge | nowhere | enter => exact .inr (.inl rfl)
  | _ => exact arrives_stage c _

end Chain

namespace Machine

variable {m : Machine} {x : ChainId} {c c' : Chain} {a : Act}

/-- What an act makes of a chain that is there. -/
lemma arrives_act (hc : m.chain? x = some c) (hc' : (m.act a).chain? x = some c') :
    c.Arrives c' := by
  have hsame : (m.act a).chain? x = m.chain? x → c.Arrives c' := by
    intro he
    rw [hc', hc] at he
    cases he
    exact .inl rfl
  have hlt : x.index < m.chains.size := (Array.getElem?_eq_some_iff.mp hc).1
  cases a with
  | move mv =>
    change (m.step mv).chain? x = some c' at hc'
    cases next_of_step hc hc' with
    | same => exact .inl rfl
    | restaged hr => exact Chain.arrives_restaged hr
    | advanced _ ha hr => exact (Chain.steps_of_advance ha hr).arrives
    | stopped => exact Chain.arrives_stopChain c _
  | host d hd =>
    refine hsame ?_
    change (m.addChain d).2.chain? x = m.chain? x
    rw [chain?_addChain_eq, if_neg (Nat.ne_of_lt hlt)]
  | close ch => exact hsame (by rw [chain?, chain?, (chains_close m ch).1])
  | change f hf => exact hsame rfl

/-- A chain that has just begun is at a node only to walk from it. -/
lemma walk_of_begun (hc : m.chain? x = none) (hc' : (m.act a).chain? x = some c')
    (hat : c'.at? ≠ none) : c'.stage = .walk := by
  cases a with
  | move mv =>
    change (m.step mv).chain? x = some c' at hc'
    obtain ⟨_, _, _, _, -, -, -, -, rfl⟩ := launched_of_step hc hc'
    exact absurd rfl hat
  | host d hd =>
    change (m.addChain d).2.chain? x = some c' at hc'
    rw [chain?_addChain_eq, hc] at hc'
    split_ifs at hc'
    cases hc'
    cases hd with
    | atNode entry => rfl
    | _ => exact absurd rfl hat
  | close ch =>
    rw [chain?, (chains_close m ch).1] at hc'
    simp [chain?] at hc
    simp [hc] at hc'
  | change f hf =>
    change m.chain? x = some c' at hc'
    simp [hc] at hc'

/-- A chain that can make a step by itself makes no other. -/
lemma chain?_act_of_advance {op : Op Chain} (hc : m.chain? x = some c)
    (ha : c.advance m.program = some op) (hne : a ≠ .move (.run x)) :
    (m.act a).chain? x = some c := by
  have hlt : x.index < m.chains.size := (Array.getElem?_eq_some_iff.mp hc).1
  cases a with
  | move mv =>
    change (m.step mv).chain? x = some c
    obtain ⟨c', hc'⟩ := exists_chain?_step ⟨c, hc⟩ mv
    cases next_of_step hc hc' with
    | same => exact hc'
    | restaged hr =>
      rw [Chain.advance_of_restaged hr] at ha
      cases ha
    | advanced hmv | stopped hmv => exact absurd (congrArg Act.move hmv) hne
  | host d hd =>
    change (m.addChain d).2.chain? x = some c
    rw [chain?_addChain_eq, if_neg (Nat.ne_of_lt hlt), hc]
  | close ch =>
    rw [chain?, (chains_close m ch).1]
    exact hc
  | change f hf => exact hc

/-- What becomes of a chain, and of the store, when it runs and makes a step by itself. -/
lemma run_of_steps {s : Store} (hc : m.chain? x = some c)
    (h : c.Steps m.program m.store c' s) :
    (m.act (.move (.run x))).chain? x = some c' ∧ (m.act (.move (.run x))).store = s := by
  rw [act, step_of_steps hc h]
  exact ⟨chain?_setChain_self hc, rfl⟩

/-- When a chain runs that cannot make a step by itself, no slot changes. -/
lemma slot?_run (hc : m.chain? x = some c) (ha : c.advance m.program = none) (f : FrameId)
    (i : Nat) : (m.act (.move (.run x))).store.slot? f i = m.store.slot? f i := by
  rcases m.step_cases (.run x) with hp | ⟨id, d, op, hid, hd, hop, -⟩
  · change (m.step (.run x)).store.slot? f i = _
    rcases hp.store with he | ⟨ch, v, -, he⟩ | ⟨ch, he⟩ <;> rw [he] <;> rfl
  · cases hid
    rw [hc] at hd
    cases hd
    rw [ha] at hop
    cases hop

end Machine

end Flowgraph
