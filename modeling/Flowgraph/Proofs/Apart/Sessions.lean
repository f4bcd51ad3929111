import Flowgraph.Proofs.Apart.Joining
import Flowgraph.Proofs.Apart.Order

/-!
# Sessions of a host

A host begins chains one after the other. When all jobs have been begun and tasks have been waited
for, it makes no difference for the store whether they were spawned or called.
-/

namespace Flowgraph

open Named Store

namespace Machine

/-- A host begins chains one after the other. When a chain has ended, with an outcome, the host goes
on with the next one, and meanwhile anything may move. -/
structure Session (start : Machine) (begins : Nat → Chain) (count : Nat) (ms : Nat → Machine)
    (outcomes : Nat → Outcome) : Prop where
  start : ms 0 = start
  reaches : ∀ i < count, ((ms i).addChain (begins i)).2.Reaches (ms (i + 1))
  outcome : ∀ i < count, ((ms (i + 1)).chain? (ms i).nextChain).bind Chain.outcome? =
    some (outcomes i)

variable {start m m' : Machine} {begins : Nat → Chain} {count n N : Nat} {ms : Nat → Machine}
  {outcomes : Nat → Outcome}

lemma Session.mono (h : Session start begins count ms outcomes) (hn : n ≤ count) :
    Session start begins n ms outcomes where
  start := h.start
  reaches i hi := h.reaches i (Nat.lt_of_lt_of_le hi hn)
  outcome i hi := h.outcome i (Nat.lt_of_lt_of_le hi hn)

/-- What every move and every beginning of a chain keeps holds throughout a session. -/
lemma Session.keeps {I : Machine → Prop} (h : Session start begins count ms outcomes)
    (hstart : I start) (hstep : ∀ m mv, I m → I (m.step mv))
    (hadd : ∀ i < count, ∀ m, I m → I (m.addChain (begins i)).2) : I (ms count) := by
  induction count with
  | zero => exact h.start ▸ hstart
  | succ n ih =>
    have hn := ih (h.mono (Nat.le_succ n)) fun i hi => hadd i (Nat.lt_succ_of_lt hi)
    have hreach := h.reaches n (Nat.lt_succ_self n)
    have hbegun := hadd n (Nat.lt_succ_self n) _ hn
    generalize ((ms n).addChain (begins n)).2 = m at hreach hbegun
    generalize ms (n + 1) = m' at hreach ⊢
    induction hreach with
    | refl => exact hbegun
    | step m mv _ ih => exact ih (hstep m mv hbegun)

/-- The machine of a host that begins one chain after the other, with some moves after each
beginning. -/
def conducted (start : Machine) (begins : Nat → Chain) (moves : Nat → List Move) : Nat → Machine
  | 0 => start
  | i + 1 => (moves i).foldl step ((conducted start begins moves i).addChain (begins i)).2

lemma reaches_foldl (m : Machine) (moves : List Move) : m.Reaches (moves.foldl step m) := by
  induction moves generalizing m with
  | nil => exact .refl m
  | cons mv moves ih => exact .step m mv (ih (m.step mv))

/-- This is a session if each chain ends during the moves after its beginning. -/
lemma session_conducted {moves : Nat → List Move}
    (h : ∀ i < count, ((conducted start begins moves (i + 1)).chain?
      (conducted start begins moves i).nextChain).bind Chain.outcome? = some (outcomes i)) :
    Session start begins count (conducted start begins moves) outcomes where
  start := rfl
  reaches _ _ := reaches_foldl _ _
  outcome := h

end Machine

namespace Jobs

variable {J : Jobs} {i k n N : Nat} {P Q : Plan} {m m' : Machine} {ms ms' : Nat → Machine}
  {outcomes outcomes' : Nat → Outcome} {begins : Nat → Chain} {node : Nat → NodeId}

lemma Begun.of_spawn {roles : ChainId → Role} {o : Outcome} (hne : J.spawn i ≠ J.call i)
    (h : J.Begun i N roles (J.spawn i) n o) :
    (∃ e y, J.Refused i e ∧ roles y = .serves i [] none ∧ n = N ∧ o = .error e) ∨
      ∃ y, J.Bound i ∧ roles y = .serves i [] (some ⟨N⟩) ∧ n = N + 1 ∧ o = .ok [] := by
  generalize hnode : J.spawn i = node at h
  cases h with
  | called => exact absurd hnode hne
  | @refused y e he hy => exact .inl ⟨e, y, he, hy, rfl, rfl⟩
  | @launched y hb hy => exact .inr ⟨y, hb, hy, rfl, rfl⟩

lemma Begun.of_call {roles : ChainId → Role} {o : Outcome} (hne : J.spawn i ≠ J.call i)
    (h : J.Begun i N roles (J.call i) n o) : ∃ y o', roles y = .serves i [.atNode (J.call i)] none ∧
      J.Result i o' ∧ o = o'.past [.atNode (J.call i)] := by
  generalize hnode : J.call i = node at h
  cases h with
  | @called y o' hy ho =>
    exact ⟨y, o', hy, ho, rfl⟩
  | refused | launched => exact absurd hnode.symm hne

/-- All jobs have come to their ends. -/
def Complete (J : Jobs) (P : Plan) : Prop :=
  ∀ i < J.count, ∃ g o, P.shares i = some g ∧ (P.points i).stage = .exit o

section

variable (hJ : J.Independent) (hp : J.start.program.Loaded) (hn : J.start.program.natives.Blind)
  (hs : J.start.store.Closed)

include hs in
/-- When all jobs have come to their ends, the common stores are the same, up to the names of what
was created. -/
lemma renamed_of_complete (h : J.Crew k P m) (h' : J.Crew n Q m') (hP : J.Complete P)
    (hQ : J.Complete Q) : ∃ π, m.store.Renamed π m'.store ∧ Keeps π J.start.store := by
  refine h.merged.renamed h'.merged (fun i => ?_) hs
  by_cases hi : i < J.count
  · obtain ⟨g, o, hg, hexit⟩ := hP i hi
    obtain ⟨g', o', hg', hexit'⟩ := hQ i hi
    obtain ⟨-, -, hcomes⟩ := h.known i g hg
    obtain ⟨-, -, hcomes'⟩ := h'.known i g' hg'
    rw [hg, hg', Option.map_some, Option.map_some, (hcomes.unique hexit hcomes' hexit').2]
  · have hnone : ∀ {k P m}, J.Crew k P m → P.shares i = none := by
      intro k P m h
      cases hg : P.shares i with
      | none => rfl
      | some g => exact absurd (h.known i g hg).1 hi
    rw [hnone h, hnone h']

include hJ hp hn hs

/-- In a session, jobs begin one after the other. -/
theorem begun_of_session (hgrants : J.start.program.config.Grants) (hidle : J.start.Idle)
    (hbegins : ∀ i < n, begins i = .atNode (node i))
    (hnode : ∀ i < n, node i = J.spawn i ∨ node i = J.call i) (hcount : n ≤ J.count)
    (h : Machine.Session J.start begins n ms outcomes) : ∃ P, J.Stands n P (ms n) ∧
      ∀ i < n, J.Begun i (ms i).launcher.started P.roles (node i) (ms (i + 1)).launcher.started
        (outcomes i) := by
  induction n with
  | zero =>
    refine ⟨J.plan, ?_, fun i hi => absurd hi (Nat.not_lt_zero i)⟩
    rw [h.start]
    exact stands_start hidle
  | succ n ih =>
    obtain ⟨P, hstands, hbegun⟩ := ih (fun i hi => hbegins i (Nat.lt_succ_of_lt hi))
      (fun i hi => hnode i (Nat.lt_succ_of_lt hi)) (Nat.le_of_succ_le hcount)
      (h.mono (Nat.le_succ n))
    have hreaches := h.reaches n (Nat.lt_succ_self n)
    rw [hbegins n (Nat.lt_succ_self n)] at hreaches
    obtain ⟨Q, hstands', hupholds, hlast⟩ := hstands.run_atNode hJ hp hn hs hgrants hcount
      (hnode n (Nat.lt_succ_self n)) hreaches (h.outcome n (Nat.lt_succ_self n))
    refine ⟨Q, hstands', fun i hi => ?_⟩
    rcases Nat.lt_succ_iff_lt_or_eq.mp hi with hlt | rfl
    · exact (hbegun i hlt).upheld hupholds
    · exact hlast

/-- Jobs whose chains have ended have come to their ends. -/
lemma Crew.complete (h : J.Crew k P m) (hended : ∀ i < J.count, ∃ y c base task,
      m.chain? y = some c ∧ c.hasEnded = true ∧ P.roles y = .serves i base task) :
    J.Complete P := by
  intro i hi
  obtain ⟨y, c, base, task, hc, hhas, hy⟩ := hended i hi
  obtain ⟨o, hs'⟩ := Machine.stage_of_hasEnded hhas
  obtain ⟨-, g, o', hg, hexit, -⟩ := h.result_of_ended hJ hp hn hs hc hy hs'
  exact ⟨g, o', hg, hexit⟩

omit hn in
/-- Where its turn comes, a call can be bound or not, as in the beginning. -/
lemma Stands.refused_iff (h : J.Stands k P m) (hk : k < J.count) (e : Stop) :
    (∃ s, m.program.bindCall globalFrame (J.call k) "call" m.store = .error e s) ↔
      J.Refused k e := by
  have hopened := h.crew.opened hJ hp hs hk h.shares_eq_none
    (hJ.bound k hk m.store (h.crew.view_operands hJ hs hk h.shares_eq_none))
  rw [h.crew.program]
  generalize J.start.program.bindCall globalFrame (J.call k) "call" m.store = result at hopened
  cases hopened with
  | bound hb =>
    constructor
    · rintro ⟨s, ⟨⟩⟩
    · rintro ⟨s, hs'⟩
      rw [hb] at hs'
      cases hs'
  | refused hb =>
    constructor
    · rintro ⟨s, ⟨⟩⟩
      exact ⟨_, hb⟩
    · rintro ⟨s, hs'⟩
      rw [hb] at hs'
      cases hs'
      exact ⟨_, rfl⟩

end

end Jobs

end Flowgraph
