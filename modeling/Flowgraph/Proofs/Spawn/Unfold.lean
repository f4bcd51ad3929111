import Mathlib.Tactic.Common
import Flowgraph.Proofs.Abort.Account
import Flowgraph.Proofs.Call.Everywhere
import Flowgraph.Proofs.Spawn.Hidden

/-!
# From a spawn to the first node of the task

A chain that spawns a task holds what the task is to call, until it has launched the task; from then
on the task's own chain holds it, unless the task is refused a thread. Whoever moves meanwhile, the
frame of the task is left alone: only the chain that holds the callee refers to it, and that chain
does not write. Once the task is on its way, it alone performs nodes in its frame, and frames that
are created later are other ones.
-/

namespace Flowgraph

open Named

/-- How far a spawned task has come: the chain that spawns it still holds what it is to call, or it
has a chain of its own, which has been moved a number of times, or its thread has been refused. -/
inductive Progress where
  | held
  | launched (chain : ChainId) (moves : Nat)
  | refused

namespace Progress

/-- The task has not performed a node yet. Its second move performs the first one. -/
def isEarly : Progress → Prop
  | held => True
  | launched _ moves => moves ≤ 1
  | refused => False

/-- What a move makes of the progress of a task that a chain spawns. -/
def after (x : ChainId) (m : Machine) (mv : Move) : Progress → Progress
  | held =>
    if mv = .run x ∧ m.chains.size < (m.step mv).chains.size then launched m.nextChain 0
    else if mv = .run x ∧ m.denied? x ≠ none then refused
    else held
  | launched y moves => if mv = .run y then launched y (moves + 1) else launched y moves
  | refused => refused

end Progress

/-- What can become of a machine in which a chain has just spawned a task. As long as the task has
not performed a node, the host has nothing in hand that refers to the frame of the task. -/
inductive Machine.Unfolds (x : ChainId) (callee : Callee) (start : Machine) :
    Progress → Machine → Prop
  | start : Unfolds x callee start .held start
  | move {k : Progress} {m : Machine} (h : Unfolds x callee start k m) (mv : Move) :
    Unfolds x callee start (k.after x m mv) (m.step mv)
  | host {k : Progress} {m : Machine} {c : Chain} (h : Unfolds x callee start k m) (hc : c.Hosted)
    (hg : k.isEarly → ∀ a, callee = .declared a → ¬Mentions c .frames a.frame.index) :
    Unfolds x callee start k (m.addChain c).2
  | change {k : Progress} {m : Machine} {s : Store} (h : Unfolds x callee start k m)
    (hs : m.store.Grows s) (hg : k.isEarly → ∀ a, callee = .declared a →
      s.Hides a.frame ∧ s.slots a.frame = m.store.slots a.frame) :
    Unfolds x callee start k { m with store := s }
  | takeFaults {k : Progress} {m : Machine} (h : Unfolds x callee start k m) :
    Unfolds x callee start k m.takeFaults.2

namespace Machine

variable {m m' start : Machine} {x y z : ChainId} {mv : Move} {c d : Chain} {g : FrameId}
  {a : Activation} {callee : Callee} {k : Progress} {n : Nat}

/-! ### What is known of the program -/

/-- A machine runs a program that has been loaded, with natives that make no functions. -/
structure Sound (m : Machine) : Prop where
  loaded : m.program.Loaded
  faithful : m.program.natives.Faithful
  fits : m.Fits

lemma Sound.step (h : m.Sound) (mv : Move) : (m.step mv).Sound where
  loaded := by rw [program_step]; exact h.loaded
  faithful := by rw [program_step]; exact h.faithful
  fits := h.fits.step mv

lemma Unfolds.sound (h : Unfolds x callee start k m) (hstart : start.Sound) : m.Sound := by
  induction h with
  | start => exact hstart
  | move _ mv ih => exact ih.step mv
  | host _ hc _ ih => exact ⟨ih.loaded, ih.faithful, ih.fits.addChain (fits_hosted hc)⟩
  | change _ _ _ ih => exact ⟨ih.loaded, ih.faithful, ih.fits⟩
  | takeFaults _ ih => exact ⟨ih.loaded, ih.faithful, ih.fits⟩

/-! ### Who holds the callee -/

/-- The chain that holds what a task is to call: at first it is the chain that spawns, and then the
task's own. -/
inductive Holder (callee : Callee) (x : ChainId) (m : Machine) : Progress → ChainId → Chain → Prop
  | spawning {c : Chain} (hc : m.chain? x = some c) (hs : c.stage = .spawn callee) :
    Holder callee x m .held x c
  | launching {c : Chain} {t : TaskId} (hc : m.chain? x = some c)
    (hs : c.stage = .launch t callee) : Holder callee x m .held x c
  | ready {y : ChainId} {t : TaskId} (hc : m.chain? y = some (.ofTask t callee)) :
    Holder callee x m (.launched y 0) y (.ofTask t callee)

namespace Holder

lemma chain? (h : Holder callee x m k z c) : m.chain? z = some c := by
  cases h with
  | spawning hc | launching hc | ready hc => exact hc

/-- Whoever holds a callee has not come to an end, and is busy with no channel. -/
lemma stage (h : Holder callee x m k z c) : (∃ t, c.stage = .launch t callee) ∨
    c.stage = .spawn callee ∨ c.stage = .start 1 callee := by
  cases h with
  | spawning _ hs => exact .inr (.inl hs)
  | launching _ hs => exact .inl ⟨_, hs⟩
  | ready => exact .inr (.inr rfl)

lemma ne_send (h : Holder callee x m k z c) (ch : ChannelId) (v : Value) (phase : SendPhase) :
    c.stage ≠ .send ch v phase := by
  rcases h.stage with ⟨t, hs⟩ | hs | hs <;> rw [hs] <;> exact fun h => by cases h

lemma ne_receive (h : Holder callee x m k z c) (ch : ChannelId) (purpose : Purpose)
    (phase : ReceivePhase) : c.stage ≠ .receive ch purpose phase := by
  rcases h.stage with ⟨t, hs⟩ | hs | hs <;> rw [hs] <;> exact fun h => by cases h

/-- As long as it does not move, nobody takes the callee from it. -/
lemma of_chain? (h : Holder callee x m k z c) (hc : m'.chain? z = some c) :
    Holder callee x m' k z c := by
  cases h with
  | spawning _ hs => exact .spawning hc hs
  | launching _ hs => exact .launching hc hs
  | ready => exact .ready hc

lemma step_of_ne (h : Holder callee x m k z c) (hmv : mv ≠ .run z) :
    Holder callee x (m.step mv) k z c :=
  h.of_chain? (chain?_step_of_ne hmv h.chain? h.ne_send h.ne_receive)

end Holder

lemma step_spawning (hc : m.chain? x = some c) (hs : c.stage = .spawn callee) :
    m.step (.run x) = m.reserve x c callee := by
  simp only [step, run, hc, hs]

lemma Holder.after_of_ne (h : Holder callee x m k z c) (hmv : mv ≠ .run z) :
    k.after x m mv = k := by
  cases h with
  | spawning | launching => rw [Progress.after, if_neg fun h => hmv h.1, if_neg fun h => hmv h.1]
  | ready => exact if_neg hmv

lemma after_spawning (hc : m.chain? x = some c) (hs : c.stage = .spawn callee) :
    Progress.held.after x m (.run x) = .held := by
  have hdenied : m.denied? x = none := by rw [denied?, hc, Option.map_some, hs]
  rw [Progress.after, step_spawning hc hs, reserve, size_setChain,
    if_neg fun h => Nat.lt_irrefl _ h.2, if_neg fun h => h.2 hdenied]

lemma after_launching {t : TaskId} (hc : m.chain? x = some c) (hs : c.stage = .launch t callee)
    (hr : m.program.config.refusal? t.index = none) :
    Progress.held.after x m (.run x) = .launched m.nextChain 0 := by
  refine if_pos ⟨rfl, ?_⟩
  rw [step_grant hc hs hr, grant, size_setChain]
  simp [addChain, count]

lemma after_denied {t : TaskId} (hc : m.chain? x = some c) (hs : c.stage = .launch t callee)
    (hr : m.program.config.refusal? t.index ≠ none) :
    Progress.held.after x m (.run x) = .refused := by
  have hdenied : m.denied? x = some t := denied?_eq_some.mpr ⟨c, callee, hc, hs, hr⟩
  obtain ⟨message, hr⟩ := Option.ne_none_iff_exists'.mp hr
  rw [Progress.after, step_deny hc hs hr, refuse, size_setChain,
    if_neg fun h => Nat.lt_irrefl _ h.2, if_pos ⟨rfl, by rw [hdenied]; exact Option.some_ne_none t⟩]

lemma after_moved : (Progress.launched y n).after x m (.run y) = .launched y (n + 1) := if_pos rfl

/-- A function is begun, unless it would be nested too deep. -/
lemma step_start {depth : Nat} (hc : m.chain? y = some c)
    (hs : c.stage = .start depth (.declared a)) : m.step (.run y) = m.setChain y (c.enter a depth) ∨
      ∃ limit, m.step (.run y) =
        m.setChain y (c.exit (.error (.fault (.stackOverflow limit)))) := by
  have ha : c.advance m.program = some (c.start m.program depth (.declared a)) := by
    simp only [Chain.advance, hs]
  rw [step, run_of_advance hc ha, stepChain_eq]
  cases hlimit : m.program.config.maxCallDepth with
  | none =>
    simp only [Chain.start, hlimit]
    exact .inl rfl
  | some limit =>
    by_cases hlt : limit < depth
    · simp only [Chain.start, hlimit, if_pos hlt]
      exact .inr ⟨limit, rfl⟩
    · simp only [Chain.start, hlimit, if_neg hlt]
      exact .inl rfl

lemma chain?_grant_nextChain (hc : m.chain? x = some c) {t : TaskId} :
    (m.grant x c t callee).chain? m.nextChain = some (.ofTask t callee) := by
  have hlt : x.index < m.chains.size := (Array.getElem?_eq_some_iff.mp hc).1
  have hne : m.nextChain ≠ x := by
    rintro rfl
    exact Nat.lt_irrefl _ hlt
  rw [chain?_grant, chain?_setChain_of_ne hne, chain?_addChain_eq]
  exact if_pos rfl

/-- Whoever holds the callee passes it on, or the task has moved or was refused a thread. -/
lemma Holder.step (h : Holder callee x m k z c) (mv : Move) :
    (∃ z c, Holder callee x (m.step mv) (k.after x m mv) z c) ∨
      (∃ y, k.after x m mv = .launched y 1) ∨ k.after x m mv = .refused := by
  by_cases hmv : mv = .run z
  · subst hmv
    cases h with
    | spawning hc hs =>
      rw [after_spawning hc hs, step_spawning hc hs]
      exact .inl ⟨_, _, .launching (chain?_setChain_self (by exact hc)) rfl⟩
    | @launching _ t hc hs =>
      by_cases hr : m.program.config.refusal? t.index = none
      · rw [after_launching hc hs hr, step_grant hc hs hr]
        exact .inl ⟨_, _, .ready (chain?_grant_nextChain hc)⟩
      · exact .inr (.inr (after_denied hc hs hr))
    | ready hc => exact .inr (.inl ⟨z, after_moved⟩)
  · rw [h.after_of_ne hmv]
    exact .inl ⟨z, c, h.step_of_ne hmv⟩

/-- Until the task has moved, some chain holds the callee, unless the task was refused a thread. -/
theorem Unfolds.holder (h : Unfolds x callee start k m) (hc : start.chain? x = some c)
    (hs : c.stage = .spawn callee) :
    (∃ z c, Holder callee x m k z c) ∨ (∃ y n, k = .launched y (n + 1)) ∨ k = .refused := by
  induction h with
  | start => exact .inl ⟨x, c, .spawning hc hs⟩
  | move h mv ih =>
    rcases ih with ⟨z, c, hholder⟩ | ⟨y, n, rfl⟩ | rfl
    · exact (hholder.step mv).imp_right (Or.imp_left fun ⟨y, hy⟩ => ⟨y, 0, hy⟩)
    · refine .inr (.inl ⟨y, ?_⟩)
      by_cases hmv : mv = .run y
      · exact ⟨n + 1, if_pos hmv⟩
      · exact ⟨n, if_neg hmv⟩
    · exact .inr (.inr rfl)
  | @host k m d h hd _ ih =>
    exact ih.imp_left fun ⟨z, c, hholder⟩ =>
      ⟨z, c, hholder.of_chain? (chain?_addChain_of_some hholder.chain? d)⟩
  | change _ _ _ ih | takeFaults _ ih =>
    exact ih.imp_left fun ⟨z, c, hholder⟩ => ⟨z, c, hholder.of_chain? hholder.chain?⟩

/-! ### Hidden frames -/

/-- But for one chain, nothing refers to a frame. -/
structure Conceals (m : Machine) (g : FrameId) (z : ChainId) : Prop where
  store : m.store.Hides g
  others : ∀ y d, y ≠ z → m.chain? y = some d → d.Misses g

section Conceals

variable (hm : m.Sound) (hg : g ≠ globalFrame) (h : m.Conceals g z)
  (hsend : ∀ c ch v phase, m.chain? z = some c → c.stage ≠ .send ch v phase)

include h hsend

lemma Conceals.offers {v : Value} (hv : m.Offers v) : v.Misses g := by
  rcases hv with ⟨ch, hv⟩ | ⟨y, d, ch, phase, hd, hs⟩
  · exact h.store.held.buffer ch v hv
  · by_cases hy : y = z
    · subst hy
      exact absurd hs (hsend d ch v phase hd)
    · have hstage := (h.others y d hy hd).stage
      rwa [hs] at hstage

include hm hg

/-- A move makes nothing of a chain that refers to the frame. -/
lemma Conceals.next (hyz : y ≠ z) (hc : m.chain? y = some c) (hd : (m.step mv).chain? y = some d) :
    d.Misses g :=
  (h.others y c hyz hc).of_next (h.store.hands hm.loaded hm.faithful hg)
    (fun _ hv => h.offers hsend hv) (hm.fits y c hc) hc hd

/-- When the chain that refers to a frame does not move, the frame stays hidden. -/
lemma Conceals.step (hmv : mv ≠ .run z) : (m.step mv).Conceals g z := by
  have hands := h.store.hands hm.loaded hm.faithful hg
  constructor
  case store =>
    obtain ⟨hheld, hinside, hunlinked⟩ := store_step_of_hands hands
      (fun ch v hv => ⟨h.store.held.pushValue ch (h.offers hsend hv), h.store.inside,
        h.store.unlinked⟩)
      (fun ch => ⟨h.store.held.popValue ch, h.store.inside, h.store.unlinked⟩) hm.fits
      fun y c hy hc _ _ => h.others y c (fun he => hmv (he ▸ hy)) hc
    exact ⟨hinside, hheld, hunlinked⟩
  case others =>
    intro y d hyz hd
    cases hc : m.chain? y with
    | some c => exact h.next hm hg hsend hyz hc hd
    | none =>
      obtain ⟨y', c, t, callee, rfl, hc, hs, -, rfl⟩ := launched_of_step hc hd
      have hstage := (h.others y' c (fun he => hmv (he ▸ rfl)) hc).stage
      rw [hs] at hstage
      exact ⟨fun w hw => absurd hw List.not_mem_nil, hstage⟩

omit hg hsend in
/-- When the chain that refers to a hidden frame does not move, the frame is left as it is. -/
lemma Conceals.slots_step (hmv : mv ≠ .run z) : (m.step mv).store.slots g = m.store.slots g := by
  refine Array.ext_getElem? fun i => ?_
  refine (only_step hm.fits mv).slot g i h.store.inside ?_
  rintro ⟨y, c, hy, hc, hw⟩
  exact (h.others y c (fun he => hmv (he ▸ hy)) hc).not_writes h.store i hw

end Conceals

end Machine

end Flowgraph
