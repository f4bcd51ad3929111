import Mathlib.Tactic.Common
import Mathlib.Logic.Function.Iterate
import Flowgraph.Proofs.Call.Everywhere
import Flowgraph.Proofs.Locality

/-!
# Driving a machine

A schedule makes one move after the other until its goal is reached or nothing can happen any more.
Of several chains, it finds one that can move if there is any. When all chains but one have ended,
the one that is left makes every move, as soon as its time has come.
-/

namespace Flowgraph

/-- The stages in which a chain needs nobody but itself. -/
def Stage.isFree : Stage → Bool
  | .send _ _ _ | .receive _ _ _ | .join (_ :: _) | .ended _ | .lost => false
  | _ => true

namespace Machine

variable {m m' : Machine} {goal x y : ChainId} {turn : Turn} {c d : Chain}

/-! ### One move at a time -/

/-- The next move on the way to a chain's end, and whose turn it is after that. -/
def tick? (goal : ChainId) (turn : Turn) (m : Machine) : Option (Turn × Move) :=
  if m.hasEnded goal then none
  else if Turn.pace ≤ turn.spent then some ({ turn with spent := 0 }, .pass 100)
  else
    match m.choose? turn with
    | some (i, move) => some (turn.next i, move)
    | none => m.sleeper?.map fun (i, time) => (.fresh i, .pass (time + oversleep - m.clock))

/-- A machine after the next move, if there is one. -/
def tick (goal : ChainId) (s : Turn × Machine) : Turn × Machine :=
  match s.2.tick? goal s.1 with
  | some (turn, mv) => (turn, s.2.step mv)
  | none => s

lemma tick_of_none {s : Turn × Machine} (h : s.2.tick? goal s.1 = none) : tick goal s = s := by
  simp only [tick, h]

lemma drive_succ (goal : ChainId) (fuel : Nat) (turn : Turn) (m : Machine) :
    m.drive goal (fuel + 1) turn = match m.tick? goal turn with
      | some (next, mv) => (m.step mv).drive goal fuel next
      | none => m := by
  simp only [drive, tick?]
  split_ifs
  · rfl
  · rfl
  · cases m.choose? turn with
    | some im => rfl
    | none => cases m.sleeper? <;> rfl

/-- Driving a machine is to make the next move again and again. -/
theorem drive_eq_iterate (goal : ChainId) (fuel : Nat) (turn : Turn) (m : Machine) :
    m.drive goal fuel turn = ((tick goal)^[fuel] (turn, m)).2 := by
  induction fuel generalizing turn m with
  | zero => rfl
  | succ fuel ih =>
    rw [drive_succ, Function.iterate_succ_apply]
    cases h : m.tick? goal turn with
    | some next => simp only [tick, h, ih]
    | none =>
      have hfix : tick goal (turn, m) = (turn, m) := tick_of_none h
      rw [hfix, Function.iterate_fixed hfix]

/-- Once the goal is reached, no further move is made. -/
lemma iterate_tick_of_ended {s : Turn × Machine} (h : s.2.hasEnded goal = true) (n : Nat) :
    (tick goal)^[n] s = s :=
  Function.iterate_fixed (tick_of_none (by simp only [tick?, h, if_true])) n

lemma program_tick (goal : ChainId) (s : Turn × Machine) :
    (tick goal s).2.program = s.2.program := by
  simp only [tick]
  split
  · exact program_step _ _
  · rfl

/-! ### Runs of a host -/

/-- Where a host's run stands after a number of moves. -/
def runAt (m : Machine) (c : Chain) (k : Nat) : Turn × Machine :=
  (tick m.nextChain)^[k] (.fresh m.chains.size, (m.addChain c).2)

lemma runAt_succ (m : Machine) (c : Chain) (k : Nat) :
    m.runAt c (k + 1) = tick m.nextChain (m.runAt c k) :=
  Function.iterate_succ_apply' _ _ _

/-- A host's run comes to what its moves lead to. -/
theorem runChain_eq (m : Machine) (fuel : Nat) (c : Chain) : m.runChain fuel c =
    (((m.runAt c fuel).2.chain? m.nextChain).bind Chain.outcome?, (m.runAt c fuel).2) := by
  rw [runAt, ← drive_eq_iterate]
  rfl

lemma program_runAt (m : Machine) (c : Chain) (k : Nat) : (m.runAt c k).2.program = m.program := by
  induction k with
  | zero => rfl
  | succ k ih => rw [runAt_succ, program_tick, ih]

lemma runAt_of_ended {j k : Nat} (h : (m.runAt c k).2.hasEnded m.nextChain = true) (hle : k ≤ j) :
    m.runAt c j = m.runAt c k := by
  obtain ⟨n, rfl⟩ := Nat.exists_eq_add_of_le' hle
  rw [runAt, Function.iterate_add_apply]
  exact iterate_tick_of_ended h n

/-- What a host is answered does not change when more moves are allowed. -/
theorem runChain_of_answer {fuel fuel' : Nat} {o : Outcome} (h : (m.runChain fuel c).1 = some o)
    (hle : fuel ≤ fuel') : m.runChain fuel' c = m.runChain fuel c := by
  have hended : (m.runAt c fuel).2.hasEnded m.nextChain = true := by
    rw [runChain_eq] at h
    obtain ⟨d, hd, ho⟩ := Option.bind_eq_some_iff.mp h
    rw [hasEnded, hd, Option.any_some, Chain.hasEnded, ho]
    rfl
  rw [runChain_eq, runChain_eq, runAt_of_ended hended hle]

/-- A host has one answer only. -/
lemma answer_unique {fuel fuel' : Nat} {o o' : Outcome} (h : (m.runChain fuel c).1 = some o)
    (h' : (m.runChain fuel' c).1 = some o') : o = o' := by
  have hmax := runChain_of_answer h (Nat.le_max_left fuel fuel')
  rw [runChain_of_answer h' (Nat.le_max_right fuel fuel')] at hmax
  rw [← hmax, h'] at h
  exact (Option.some.inj h).symm

/-! ### Nobody is passed over -/

lemma nextMove?_eq_none {i count : Nat} (hi : i < m.chains.size) (h : m.nextMove? i count = none)
    {j : Nat} (hj : j < m.chains.size)
    (hwithin : i < j ∧ j ≤ i + count ∨ j + m.chains.size ≤ i + count) : m.moveAt? j = none := by
  induction count generalizing i with
  | zero => omega
  | succ count ih =>
    rw [nextMove?] at h
    split at h
    · cases h
    case h_2 hnone =>
      split_ifs at h hnone with hlast
      · by_cases hji : j = i + 1
        · rw [hji]; exact hnone
        · exact ih hlast h (by omega)
      · by_cases hji : j = 0
        · rw [hji]; exact hnone
        · exact ih (Nat.zero_lt_of_lt hj) h (by omega)

/-- When no chain is chosen, none can move. -/
lemma moveAt?_of_choose? (h : m.choose? turn = none) (j : Nat) : m.moveAt? j = none := by
  by_cases hj : j < m.chains.size
  · simp only [choose?] at h
    split at h
    · cases h
    · by_cases hplace : turn.place + 1 < m.chains.size
      · exact nextMove?_eq_none (Nat.lt_of_succ_lt hplace) h hj (by omega)
      · -- from beyond the last place, the search goes on at the first one
        have hsame : m.nextMove? turn.place m.chains.size =
            m.nextMove? (m.chains.size - 1) m.chains.size := by
          cases hsize : m.chains.size with
          | zero => omega
          | succ n =>
            have hlast : ¬n + 1 < n + 1 := Nat.lt_irrefl _
            simp only [nextMove?, hsize, if_neg (hsize ▸ hplace), Nat.add_sub_cancel, if_neg hlast]
        rw [hsame] at h
        exact nextMove?_eq_none (by omega) h hj (by omega)
  · simp only [moveAt?, Array.getElem?_eq_none (Nat.le_of_not_lt hj)]

lemma moveAt?_of_nextMove? {i j count : Nat} {mv : Move} (h : m.nextMove? i count = some (j, mv)) :
    m.moveAt? j = some mv := by
  induction count generalizing i with
  | zero => cases h
  | succ count ih =>
    rw [nextMove?] at h
    split at h
    case h_1 mv' hmv =>
      cases h
      exact hmv
    case h_2 => exact ih h

/-- A chain that is chosen can make the move. -/
lemma moveAt?_of_choose?_some {j : Nat} {mv : Move} (h : m.choose? turn = some (j, mv)) :
    m.moveAt? j = some mv := by
  simp only [choose?] at h
  split at h
  case h_1 mv' hmv =>
    cases h
    split_ifs at hmv
    exact hmv
  case h_2 => exact moveAt?_of_nextMove? h

/-! ### The last chain -/

/-- Every chain but one has ended. -/
def Lone (m : Machine) (x : ChainId) : Prop :=
  ∀ y c, y ≠ x → m.chain? y = some c → c.hasEnded = true

/-- As long as the last chain launches no task, it stays the last one. -/
lemma Lone.step (h : m.Lone x) (hlaunch : ∀ c, m.chain? x = some c →
    ∀ t callee, c.stage ≠ .launch t callee) (mv : Move) : (m.step mv).Lone x := by
  intro y d hy hd
  cases hc : m.chain? y with
  | some c =>
    rw [chain?_of_hasEnded hc (h y c hy hc)] at hd
    cases hd
    exact h y d hy hc
  | none =>
    obtain ⟨z, c, t, callee, -, hz, hs, -, -⟩ := launched_of_step hc hd
    by_cases hzx : z = x
    · subst hzx
      exact absurd hs (hlaunch c hz t callee)
    · obtain ⟨outcome, hs'⟩ := stage_of_hasEnded (h z c hzx hz)
      rw [hs] at hs'
      cases hs'

lemma moveAt?_eq (hc : m.chain? x = some c) : m.moveAt? x.index = m.moveOf? x c := by
  rw [chain?] at hc
  simp only [moveAt?, hc]

/-- A chain that needs nobody can move, or sleeps. -/
lemma moveOf?_of_isFree (h : c.stage.isFree = true) :
    m.moveOf? x c = some (.run x) ∧ (∀ time, c.stage = .sleep time → time ≤ m.clock) ∨
      ∃ time, c.stage = .sleep time ∧ m.clock < time ∧ m.moveOf? x c = none := by
  simp only [moveOf?]
  cases hs : c.stage with
  | sleep time =>
    by_cases ht : time ≤ m.clock
    · exact .inl ⟨by simp only [if_pos ht], fun _ he => by cases he; exact ht⟩
    · exact .inr ⟨time, rfl, Nat.lt_of_not_le ht, by simp only [if_neg ht]⟩
  | join chains =>
    cases chains with
    | nil => exact .inl ⟨rfl, nofun⟩
    | cons y rest => rw [hs] at h; cases h
  | send | receive | ended | lost => rw [hs] at h; cases h
  | _ => exact .inl ⟨rfl, nofun⟩

lemma Lone.moveAt?_eq_none (h : m.Lone x) {j : Nat} (hj : j ≠ x.index) : m.moveAt? j = none := by
  cases hc : m.chain? ⟨j⟩ with
  | none =>
    rw [chain?] at hc
    simp only [moveAt?, hc]
  | some c =>
    obtain ⟨outcome, hs⟩ := stage_of_hasEnded (h ⟨j⟩ c (fun he => hj (congrArg (·.index) he)) hc)
    rw [moveAt?_eq hc]
    simp only [moveOf?, hs]

/-- If the last chain can move, it is chosen. -/
lemma Lone.choose? (h : m.Lone x) (hc : m.chain? x = some c) {mv : Move}
    (hmv : m.moveOf? x c = some mv) : m.choose? turn = some (x.index, mv) := by
  rw [← moveAt?_eq hc] at hmv
  cases hchoose : m.choose? turn with
  | none =>
    rw [moveAt?_of_choose? hchoose] at hmv
    cases hmv
  | some next =>
    obtain ⟨j, mv'⟩ := next
    have hj := moveAt?_of_choose?_some hchoose
    by_cases hne : j = x.index
    · rw [hne, hmv] at hj
      cases hj
      rw [hne]
    · rw [h.moveAt?_eq_none hne] at hj
      cases hj

lemma Lone.choose?_eq_none (h : m.Lone x) (hc : m.chain? x = some c)
    (hmv : m.moveOf? x c = none) : m.choose? turn = none := by
  cases hchoose : m.choose? turn with
  | none => rfl
  | some next =>
    obtain ⟨j, mv'⟩ := next
    have hj := moveAt?_of_choose?_some hchoose
    by_cases hne : j = x.index
    · rw [hne, moveAt?_eq hc, hmv] at hj
      cases hj
    · rw [h.moveAt?_eq_none hne] at hj
      cases hj

/-- If only the last chain sleeps, it is the sleeper that wakes up first. -/
lemma Lone.sleeper? (h : m.Lone x) (hc : m.chain? x = some c) {time : Nat}
    (hs : c.stage = .sleep time) : m.sleeper? = some (x.index, time) := by
  have hlist : ∀ c i, (c, i) ∈ m.chains.toList.zipIdx → m.chain? ⟨i⟩ = some c := by
    intro c i hi
    have hget := List.mk_mem_zipIdx_iff_getElem?.mp hi
    rwa [Array.getElem?_toList] at hget
  have hmem : (c, x.index) ∈ m.chains.toList.zipIdx := by
    rw [List.mk_mem_zipIdx_iff_getElem?, Array.getElem?_toList]
    exact hc
  have hother : ∀ d i, (d, i) ∈ m.chains.toList.zipIdx → i = x.index ∧ d = c ∨
      ∃ outcome, d.stage = .ended outcome := by
    intro d i hi
    by_cases hix : i = x.index
    · refine .inl ⟨hix, ?_⟩
      have hd := hlist d i hi
      rw [hix, hc] at hd
      cases hd
      rfl
    · exact .inr (stage_of_hasEnded
        (h ⟨i⟩ d (fun he => hix (congrArg (·.index) he)) (hlist d i hi)))
  rw [Machine.sleeper?]
  -- the fold has found nothing yet, or it has found this sleeper
  generalize m.chains.toList.zipIdx = l at hmem hother
  generalize hnone : (none : Option (Nat × Nat)) = best
  have hbest : best = some (x.index, time) ∨ best = none ∧ (c, x.index) ∈ l :=
    .inr ⟨hnone.symm, hmem⟩
  clear hnone hmem
  induction l generalizing best with
  | nil =>
    rcases hbest with rfl | ⟨-, hmem⟩
    · rfl
    · cases hmem
  | cons e l ih =>
    obtain ⟨d, i⟩ := e
    rw [List.foldl_cons]
    refine ih (fun d i hi => hother d i (List.mem_cons_of_mem _ hi)) _ ?_
    rcases hother d i List.mem_cons_self with ⟨rfl, rfl⟩ | ⟨outcome, hended⟩
    · left
      rcases hbest with rfl | ⟨rfl, -⟩
      · simp only [hs, ite_self]
      · simp only [hs]
    · simp only [hended]
      rcases hbest with hfound | ⟨hnone, hin⟩
      · exact .inl hfound
      · refine .inr ⟨hnone, ?_⟩
        rcases List.mem_cons.mp hin with he | hin
        · cases he
          rw [hs] at hended
          cases hended
        · exact hin

lemma hasEnded_of_isFree (hc : m.chain? x = some c) (hfree : c.stage.isFree = true) :
    m.hasEnded x = false := by
  rw [hasEnded, hc, Option.any_some, Chain.hasEnded, Chain.outcome?]
  cases hs : c.stage <;> first | rfl | (rw [hs] at hfree; cases hfree)

/-- Now and then a tenth of a millisecond passes. -/
lemma tick_pace (hc : m.chain? x = some c) (hfree : c.stage.isFree = true)
    (hspent : Turn.pace ≤ turn.spent) :
    tick x (turn, m) = ({ turn with spent := 0 }, { m with clock := m.clock + 100 }) := by
  simp only [tick, tick?, hasEnded_of_isFree hc hfree, if_pos hspent, Bool.false_eq_true, if_false,
    Machine.step]

lemma Lone.tick_run (h : m.Lone x) (hc : m.chain? x = some c) (hfree : c.stage.isFree = true)
    (hspent : turn.spent < Turn.pace) (hmv : m.moveOf? x c = some (.run x)) :
    tick x (turn, m) = (turn.next x.index, m.step (.run x)) := by
  simp only [tick, tick?, hasEnded_of_isFree hc hfree, if_neg (Nat.not_le_of_lt hspent),
    h.choose? hc hmv, Bool.false_eq_true, if_false]

lemma Lone.tick_sleep (h : m.Lone x) (hc : m.chain? x = some c) {wake : Nat}
    (hs : c.stage = .sleep wake) (hspent : turn.spent < Turn.pace) (hlt : m.clock < wake) :
    tick x (turn, m) = (.fresh x.index, { m with clock := wake + oversleep }) := by
  have hfree : c.stage.isFree = true := by rw [hs]; rfl
  have hmv : m.moveOf? x c = none := by simp only [moveOf?, hs, if_neg (Nat.not_le_of_lt hlt)]
  have hclock : m.clock + (wake + oversleep - m.clock) = wake + oversleep := by omega
  simp only [tick, tick?, hasEnded_of_isFree hc hfree, if_neg (Nat.not_le_of_lt hspent),
    h.choose?_eq_none hc hmv, h.sleeper? hc hs, Bool.false_eq_true, if_false, Option.map_some,
    Machine.step, hclock]

/-- While the pace is kept, the last chain moves at once or after a sleep. -/
lemma Lone.tick_paced (h : m.Lone x) (hc : m.chain? x = some c) (hfree : c.stage.isFree = true)
    (hspent : turn.spent < Turn.pace) : ∃ n next time, m.clock ≤ time ∧
      (∀ wake, c.stage = .sleep wake → wake ≤ time) ∧
      (tick x)^[n + 1] (turn, m) = (next, ({ m with clock := time }).step (.run x)) := by
  rcases moveOf?_of_isFree (m := m) (x := x) hfree with ⟨hmv, hwake⟩ | ⟨wake, hs, hlt, -⟩
  · exact ⟨0, _, m.clock, Nat.le_refl _, hwake, h.tick_run hc hfree hspent hmv⟩
  · have hle : wake ≤ wake + oversleep := Nat.le_add_right _ _
    have hmv : ({ m with clock := wake + oversleep } : Machine).moveOf? x c = some (.run x) := by
      simp only [moveOf?, hs, if_pos hle]
    have hspent' : (Turn.fresh x.index).spent < Turn.pace := Nat.succ_pos _
    have hsecond := Lone.tick_run (m := { m with clock := wake + oversleep }) h hc hfree hspent' hmv
    refine ⟨1, (Turn.fresh x.index).next x.index, wake + oversleep,
      Nat.le_trans (Nat.le_of_lt hlt) hle, fun w hw => ?_, ?_⟩
    · rw [hs] at hw
      cases hw
      exact hle
    · rw [Function.iterate_succ_apply, h.tick_sleep hc hs hspent hlt]
      exact hsecond

/-- The last chain makes its next step as soon as its time has come. Before that, nothing but time
passes. -/
theorem Lone.tick_progress (h : m.Lone x) (hc : m.chain? x = some c)
    (hfree : c.stage.isFree = true) (turn : Turn) : ∃ n next time, m.clock ≤ time ∧
      (∀ wake, c.stage = .sleep wake → wake ≤ time) ∧
      (tick x)^[n + 1] (turn, m) = (next, ({ m with clock := time }).step (.run x)) := by
  by_cases hspent : turn.spent < Turn.pace
  · exact h.tick_paced hc hfree hspent
  · have hspent' : ({ turn with spent := 0 } : Turn).spent < Turn.pace := Nat.succ_pos _
    obtain ⟨n, next, time, hle, hwake, hn⟩ :=
      Lone.tick_paced (m := { m with clock := m.clock + 100 }) h hc hfree hspent'
    refine ⟨n + 1, next, time, Nat.le_trans (Nat.le_add_right _ _) hle, hwake, ?_⟩
    rw [Function.iterate_succ_apply, tick_pace hc hfree (Nat.le_of_not_lt hspent), hn]

/-- After some time the last chain has been restaged, and all else is the same. -/
def Turns (m : Machine) (x : ChainId) (turn : Turn) (c : Chain) : Prop :=
  ∃ n next m', (tick x)^[n] (turn, m) = (next, m') ∧ m'.store = m.store ∧
    m'.launcher = m.launcher ∧ m'.Lone x ∧ m'.chain? x = some c

lemma Lone.turns (h : m.Lone x) (hc : m.chain? x = some c) (hfree : c.stage.isFree = true)
    (turn : Turn) (hstep : ∀ time, ({ m with clock := time } : Machine).step (.run x) =
      ({ m with clock := time } : Machine).setChain x d) : m.Turns x turn d := by
  obtain ⟨n, next, time, -, -, hn⟩ := h.tick_progress hc hfree turn
  rw [hstep time] at hn
  refine ⟨n + 1, next, _, hn, rfl, rfl, fun y e hy he => ?_, chain?_setChain_self hc⟩
  rw [chain?_setChain_of_ne hy] at he
  exact h y e hy he

/-- When the last chain comes to its end and is no task, it is let go without further ado. -/
lemma Lone.tick_exit (h : m.Lone x) (hc : m.chain? x = some c) {outcome : Outcome}
    (hs : c.stage = .exit outcome) (htask : c.task = none) (turn : Turn) :
    m.Turns x turn { c with stage := .ended outcome } := by
  have hleave : m.Turns x turn { c with stage := .leave outcome } := by
    refine h.turns hc (by rw [hs]; rfl) turn fun time => ?_
    rw [step_exit (m := { m with clock := time }) hc hs]
    simp only [record, htask]
  obtain ⟨n, next, m', hn, hstore, hlauncher, hlone, hc'⟩ := hleave
  have hended : m'.Turns x next { c with stage := .ended outcome } := by
    refine hlone.turns hc' rfl next fun time => ?_
    rw [step_leave (m := { m' with clock := time }) hc' rfl]
    simp only [retire, htask, Option.isSome_none, Bool.false_eq_true, if_false]
  obtain ⟨n', next', m'', hn', hstore', hlauncher', hlone', hc''⟩ := hended
  refine ⟨n' + n, next', m'', ?_, hstore'.trans hstore, hlauncher'.trans hlauncher, hlone', hc''⟩
  rw [Function.iterate_add_apply, hn, hn']

end Machine

end Flowgraph
