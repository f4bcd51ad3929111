import Mathlib.Data.Nat.Pairing
import Flowgraph.Proofs.Apart.Sessions
import Flowgraph.Proofs.Halting.Runs

/-!
# The end of a session

The chains of a host, when they begin jobs or wait for tasks, come to their ends if every chain has
its turn again and again. Such turns can always be taken.
-/

namespace Flowgraph

open Named Store

namespace Machine

variable {m : Machine} {run : Nat → Machine} {x y : ChainId} {c d : Chain}

/-- What a host begins comes to its end, with an outcome, when all chains have their turns again and
again. -/
def Completes (m : Machine) (c : Chain) : Prop :=
  ∀ run, run 0 = (m.addChain c).2 → IsRun run → (∀ x, Fair run x) →
    ∃ k o, ((run k).chain? m.nextChain).bind Chain.outcome? = some o

/-- What every move keeps holds throughout a run. -/
lemma IsRun.keeps {I : Machine → Prop} (h : IsRun run)
    (hstep : ∀ m mv, I m → I (m.step mv)) {i : Nat}
    (hi : I (run i)) (j : Nat) : I (run (i + j)) := by
  induction j with
  | zero => exact hi
  | succ j ih =>
    rw [← Nat.add_assoc]
    rcases h (i + j) with heq | ⟨mv, heq⟩
    · rw [heq]
      exact ih
    · rw [heq]
      exact hstep _ mv ih

/-- A chain that has its turn again and again comes to its end if there is a bound on how many moves
it has left, which every move that it makes use of lowers. -/
theorem IsRun.ends {M : Nat → Machine → Prop} (hrun : IsRun run) (hfair : Fair run y)
    (hstep : ∀ n m mv, M n m → ∃ n' ≤ n, M n' (m.step mv) ∧
      (mv = .run y → n' < n ∨ ∃ c, m.chain? y = some c ∧ m.Waits c))
    {i n : Nat} (h : M n (run i)) : ∃ j, (run (i + j)).hasEnded y = true := by
  induction n using Nat.strong_induction_on generalizing i with
  | _ n ih =>
    obtain ⟨j, hturn, hready⟩ := hfair i
    obtain ⟨n₁, hle, h₁⟩ : ∃ n' ≤ n, M n' (run (i + j)) := by
      refine hrun.keeps (I := fun m => ∃ n' ≤ n, M n' m) ?_ ⟨n, Nat.le_refl n, h⟩ j
      rintro m mv ⟨n', hle, h⟩
      obtain ⟨n'', hle', h', -⟩ := hstep n' m mv h
      exact ⟨n'', Nat.le_trans hle' hle, h'⟩
    obtain ⟨n₂, -, h₂, hmoved⟩ := hstep n₁ _ (.run y) h₁
    rcases hmoved rfl with hlt | ⟨c, hc, hended | ⟨time, hs, htime⟩⟩
    · rw [← hturn] at h₂
      obtain ⟨j', hended⟩ := ih n₂ (Nat.lt_of_lt_of_le hlt hle) h₂
      refine ⟨j + 1 + j', ?_⟩
      rwa [← Nat.add_assoc, ← Nat.add_assoc]
    · refine ⟨j, ?_⟩
      rwa [hasEnded, hc]
    · exact absurd (hready c time hc hs) (Nat.not_le.mpr htime)

/-- A chain that has ended has an outcome, and keeps it. -/
lemma outcome_of_hasEnded (h : m.hasEnded x = true) :
    ∃ o, (m.chain? x).bind Chain.outcome? = some o := by
  cases hc : m.chain? x with
  | none =>
    rw [hasEnded, hc] at h
    cases h
  | some c =>
    rw [hasEnded, hc] at h
    obtain ⟨o, hs⟩ := stage_of_hasEnded h
    exact ⟨o, by rw [Option.bind_some, Chain.outcome?, hs]⟩

/-- When each of some chains comes to its end, the time comes when all of them have. -/
lemma IsRun.all_ended (hrun : IsRun run) {ys : List ChainId} {i : Nat}
    (h : ∀ y ∈ ys, ∃ j, (run (i + j)).hasEnded y = true) :
    ∃ j, ∀ y ∈ ys, (run (i + j)).hasEnded y = true := by
  induction ys with
  | nil => exact ⟨0, fun y hy => absurd hy List.not_mem_nil⟩
  | cons first rest ih =>
    obtain ⟨j, hj⟩ := h first List.mem_cons_self
    obtain ⟨j', hj'⟩ := ih fun y hy => h y (List.mem_cons_of_mem first hy)
    have hstays : ∀ y m mv, m.hasEnded y = true → (step m mv).hasEnded y = true :=
      fun _ _ mv h => hasEnded_step h mv
    refine ⟨j + j', fun y hy => ?_⟩
    rcases List.mem_cons.mp hy with rfl | hy
    · rw [← Nat.add_assoc]
      exact hrun.keeps (hstays y) hj j'
    · rw [Nat.add_comm j, ← Nat.add_assoc]
      exact hrun.keeps (hstays y) (hj' y hy) j

/-! ### Turns for all -/

/-- The time at which a chain that sleeps wants to wake up. -/
def alarm (m : Machine) (x : ChainId) : Nat :=
  match (m.chain? x).map Chain.stage with
  | some (.sleep wake) => wake
  | _ => 0

/-- A run in which one chain after the other has its turn, each of them again and again. -/
def roundRobin (m : Machine) : Nat → Machine
  | 0 => m
  | k + 1 =>
    if k % 2 = 0 then (roundRobin m k).step (.pass ((roundRobin m k).alarm ⟨(k / 2).unpair.1⟩))
    else (roundRobin m k).step (.run ⟨(k / 2).unpair.1⟩)

lemma isRun_roundRobin (m : Machine) : IsRun m.roundRobin := by
  intro k
  right
  rw [roundRobin]
  split_ifs
  · exact ⟨_, rfl⟩
  · exact ⟨_, rfl⟩

/-- In this run every chain has its turn again and again. -/
theorem fair_roundRobin (m : Machine) (x : ChainId) : Fair m.roundRobin x := by
  intro k
  -- a turn of this chain that is not yet over
  obtain ⟨n, hn, hturn⟩ : ∃ n, k ≤ n ∧ (⟨n.unpair.1⟩ : ChainId) = x :=
    ⟨Nat.pair x.index k, Nat.right_le_pair x.index k, by rw [Nat.unpair_pair]⟩
  have hrun : m.roundRobin (2 * n + 2) = (m.roundRobin (2 * n + 1)).step (.run x) := by
    rw [roundRobin, if_neg (by omega), show (2 * n + 1) / 2 = n by omega, hturn]
  have hpass : m.roundRobin (2 * n + 1) =
      (m.roundRobin (2 * n)).step (.pass ((m.roundRobin (2 * n)).alarm x)) := by
    rw [roundRobin, if_pos (by omega), show 2 * n / 2 = n by omega, hturn]
  refine ⟨2 * n + 1 - k, ?_⟩
  rw [show k + (2 * n + 1 - k) = 2 * n + 1 by omega]
  constructor
  · exact hrun
  · intro c wake hc hs
    rw [hpass] at hc ⊢
    generalize m.roundRobin (2 * n) = m at hc ⊢
    have hc : m.chain? x = some c := hc
    have halarm : m.alarm x = wake := by
      simp only [alarm, hc, Option.map_some, hs]
    rw [halarm]
    exact Nat.le_add_left wake m.clock

/-! ### Waiting for nobody any more -/

/-- How many moves a chain has left at most that joins tasks, if all of them have ended. -/
def toJoin (m : Machine) (c : Chain) : Nat :=
  match c.stage with
  | .join chains => chains.length + 2 * m.launcher.handles.length + 3
  | stage => stage.tail

/-- When those that it waits for have ended, a chain that joins is nearer to its end after its move.
-/
lemma toJoin_lt {chains : List ChainId} (hc : m.chain? x = some c) (hs : c.stage = .join chains)
    (hended : ∀ y ∈ chains, m.hasEnded y = true) :
    ∃ d, (m.step (.run x)).chain? x = some d ∧ (m.step (.run x)).toJoin d < m.toJoin c := by
  have hstep : m.step (.run x) = m.join x c chains := by simp only [step, run, hc, hs]
  rw [hstep]
  cases chains with
  | cons first rest =>
    have hfirst := hended first List.mem_cons_self
    refine ⟨{ c with stage := .join rest }, ?_, ?_⟩
    · simp only [join, hfirst, if_true]
      exact chain?_setChain_self hc
    · simp only [join, hfirst, if_true, toJoin, hs, List.length_cons, setChain]
      omega
  | nil =>
    cases hhandles : m.launcher.handles with
    | nil =>
      refine ⟨c.exit (.ok []), ?_, ?_⟩
      · simp only [join, hhandles]
        exact chain?_setChain_self hc
      · simp only [toJoin, hs, Chain.exit, Stage.tail]
        omega
    | cons first rest =>
      refine ⟨{ c with stage := .join (first :: rest) }, ?_, ?_⟩
      · simp only [join, hhandles]
        exact chain?_setChain_self (c := c) hc
      · simp only [join, hhandles, toJoin, hs, setChain, List.length_nil, List.length_cons]
        omega

end Machine

lemma Chain.Parting.toJoin_eq {p : Program} {o : Outcome} (h : c.Parting p o) (m : Machine) :
    m.toJoin c = c.stage.tail := by
  rw [Machine.toJoin]
  cases h with
  | settled h => cases h <;> simp_all
  | following _ _ hs | walking _ hs => rw [hs]

namespace Jobs

variable {J : Jobs} {k n : Nat} {P Q : Plan} {m : Machine} {run : Nat → Machine} {x y : ChainId}
  {c : Chain} {node : NodeId}

/-- In a crew, a chain has so many moves left at most. -/
def Nears (J : Jobs) (k : Nat) (x y : ChainId) (n : Nat) (m : Machine) : Prop :=
  ∃ P c, J.Host k P m x ∧ m.chain? y = some c ∧ J.Left P (P.roles y) c n

section

variable (hJ : J.Independent) (hp : J.start.program.Loaded) (hn : J.start.program.natives.Blind)
  (hs : J.start.store.Closed) (hgrants : J.start.program.config.Grants)

include hJ hp hn hs hgrants

omit hp hn hs hgrants in
/-- A chain that does not wait for tasks has only so many moves left. -/
lemma Crew.exists_left (h : J.Crew k P m) (hc : m.chain? y = some c) (hy : P.roles y ≠ .joins) :
    ∃ n, J.Left P (P.roles y) c n := by
  have hplays := h.plays y c hc
  cases hrole : P.roles y with
  | joins => exact absurd hrole hy
  | rests o => exact ⟨_, .rests c⟩
  | opens i node =>
    rw [hrole] at hplays
    cases hplays with
    | opens hi =>
      obtain ⟨n, hlasts⟩ := (hJ.contained i hi).lasts .start
      exact ⟨_, .opens _ hlasts⟩
  | holds i number =>
    cases number with
    | none => exact ⟨_, .bound c⟩
    | some t => exact ⟨_, .numbered c⟩
  | serves i base task =>
    rw [hrole] at hplays
    cases hplays with
    | serves hi =>
      obtain ⟨hlt, -, hcomes⟩ := h.known i _ hi
      obtain ⟨n, hlasts⟩ := (hJ.contained i hlt).lasts hcomes
      exact ⟨_, .serves c hi hlasts⟩

/-- In every move a chain keeps as near to its end, and its own moves bring it nearer if it has a
use for them. -/
lemma Nears.step (h : J.Nears k x y n m) (mv : Move) : ∃ n' ≤ n, J.Nears k x y n' (m.step mv) ∧
    (mv = .run y → n' < n ∨ ∃ c, m.chain? y = some c ∧ m.Waits c) := by
  obtain ⟨P, c, hhost, hc, hleft⟩ := h
  obtain ⟨Q, hQ, hhost'⟩ := hhost.step hJ hp hn hs hgrants mv
  obtain ⟨d, n', hd, hleft', hle, hrun⟩ := hQ.left y c n hc hleft
  refine ⟨n', hle, ⟨Q, d, hhost', hd, hleft'⟩, fun hmv => ?_⟩
  rcases hrun hmv with hlt | ⟨-, -, hwaits⟩
  · exact .inl hlt
  · exact .inr ⟨c, hc, hwaits⟩

/-- The chain at the node of a job comes to its end. -/
theorem Stands.completes_atNode (h : J.Stands k P m) (hk : k < J.count)
    (hnode : node = J.spawn k ∨ node = J.call k) : m.Completes (.atNode node) := by
  intro run hzero hrun hfair
  have hhost := h.host_atNode hk hnode
  have hc := m.chain?_addChain (.atNode node)
  obtain ⟨n, hleft⟩ := hhost.crew.exists_left hJ hc (by rw [P.assign_self]; exact Role.noConfusion)
  rw [← hzero] at hhost hc
  have hnears : J.Nears k m.nextChain m.nextChain n (run 0) := ⟨_, _, hhost, hc, hleft⟩
  obtain ⟨j, hended⟩ := hrun.ends (hfair _) (fun n m mv h => h.step hJ hp hn hs hgrants mv) hnears
  obtain ⟨o, ho⟩ := Machine.outcome_of_hasEnded hended
  exact ⟨0 + j, o, ho⟩

end

/-! ### The chain that joins -/

/-- A chain of the host joins tasks. There are no other chains than those that were there before. -/
structure Joins (J : Jobs) (k : Nat) (x : ChainId) (m : Machine) : Prop where
  host : ∃ P, J.Host k P m x ∧ P.roles x = .joins
  listed : m.Listed
  chain : ∃ c, m.chain? x = some c ∧ c.task = none
  before : ∀ y c, y ≠ x → m.chain? y = some c → y.index < x.index

/-- Only a chain that joins tasks has not ended, and it has so many moves left at most. -/
structure Lingers (J : Jobs) (k : Nat) (x : ChainId) (n : Nat) (m : Machine) : Prop where
  joins : J.Joins k x m
  left : ∃ c, m.chain? x = some c ∧ m.toJoin c = n
  others : ∀ y c, y ≠ x → m.chain? y = some c → c.hasEnded = true

variable {mv : Move}

/-- The move of a chain that joins tasks brings it nearer to its end, since nobody is left to wait
for. -/
lemma Lingers.step_run (h : J.Lingers k x n m) (hc : m.chain? x = some c) :
    ∃ d, (m.step (.run x)).chain? x = some d ∧ (m.step (.run x)).toJoin d ≤ n ∧
      ((m.step (.run x)).toJoin d < n ∨ m.Waits c) := by
  obtain ⟨P, hhost, hx⟩ := h.joins.host
  obtain ⟨_, hc', htask⟩ := h.joins.chain
  obtain ⟨_, hc'', rfl⟩ := h.left
  rw [hc] at hc' hc''
  cases hc'
  cases hc''
  have hplays := hhost.crew.plays x c hc
  rw [hx] at hplays
  cases hplays with
  | joins hj =>
    rcases hj with ⟨-, chains, hs⟩ | hpart
    · obtain ⟨d, hd, hlt⟩ := Machine.toJoin_lt hc hs fun y hy => by
        obtain ⟨d, hd, hsome⟩ :=
          h.joins.listed y (.inr ⟨x, c, hc, by rw [Chain.Lists, hs]; exact hy⟩)
        have hne : y ≠ x := by
          rintro rfl
          rw [hc] at hd
          cases hd
          rw [htask] at hsome
          cases hsome
        rw [Machine.hasEnded, hd]
        exact h.others y d hne hd
      exact ⟨d, hd, Nat.le_of_lt hlt, .inl hlt⟩
    · rw [← hhost.crew.program] at hpart
      obtain ⟨d, ha, hd, -, hnearer⟩ := Machine.alters_parting hc hpart
      refine ⟨d, ha.self, ?_⟩
      rw [hd.toJoin_eq, hpart.toJoin_eq]
      rcases hnearer with hlt | ⟨rfl, hwaits⟩
      · exact ⟨Nat.le_of_lt hlt, .inl hlt⟩
      · exact ⟨Nat.le_refl _, .inr hwaits⟩

/-- As long as no chain begins a job, there are no new chains. -/
lemma Change.existed {m' : Machine} (hQ : J.Change k P m mv Q m') (h : J.Host k P m x)
    (hx : P.roles x = .joins) (hy : m'.chain? y = some c) : ∃ d, m.chain? y = some d := by
  cases hd : m.chain? y with
  | some d => exact ⟨d, rfl⟩
  | none =>
    obtain ⟨z, i, t, hz, -⟩ := hQ.created y c hd hy
    have hbegin : (P.roles z).isBeginning = false := by
      by_cases hzx : z = x
      · rw [hzx, hx]
        rfl
      · exact h.crew.isBeginning_of_attends (h.others z hzx)
    rw [hz] at hbegin
    cases hbegin

section

variable (hJ : J.Independent) (hp : J.start.program.Loaded) (hn : J.start.program.natives.Blind)
  (hs : J.start.store.Closed) (hgrants : J.start.program.config.Grants)

include hJ hp hn hs hgrants

/-- A chain joins tasks until its end. -/
lemma Joins.step (h : J.Joins k x m) (mv : Move) : J.Joins k x (m.step mv) ∧
    (∀ y c, (m.step mv).chain? y = some c → ∃ d, m.chain? y = some d) ∧
    ∀ c, mv ≠ .run x → m.chain? x = some c → (m.step mv).chain? x = some c := by
  obtain ⟨P, hhost, hx⟩ := h.host
  obtain ⟨Q, hQ, hhost'⟩ := hhost.step hJ hp hn hs hgrants mv
  have hexisted : ∀ y c, (m.step mv).chain? y = some c → ∃ d, m.chain? y = some d :=
    fun y c hy => hQ.existed hhost hx hy
  refine ⟨?_, hexisted, fun c hmv hc => (hQ.others x c hmv hc).1⟩
  constructor
  case host =>
    have hrole := hQ.turnover.same (y := x) (by rw [hx]; rfl) (by rw [hx]; exact Role.noConfusion)
    exact ⟨Q, hhost', hrole.trans hx⟩
  case listed => exact h.listed.step mv
  case chain =>
    obtain ⟨c, hc, htask⟩ := h.chain
    obtain ⟨d, hd⟩ := Machine.exists_chain?_step ⟨c, hc⟩ mv
    exact ⟨d, hd, (Machine.task_step hc hd).trans htask⟩
  case before =>
    intro y d hy hd
    obtain ⟨e, he⟩ := hexisted y d hd
    exact h.before y e hy he

/-- In every move a chain that joins tasks keeps as near to its end, and its own moves bring it
nearer. -/
lemma Lingers.step (h : J.Lingers k x n m) (mv : Move) :
    ∃ n' ≤ n, J.Lingers k x n' (m.step mv) ∧
      (mv = .run x → n' < n ∨ ∃ c, m.chain? x = some c ∧ m.Waits c) := by
  obtain ⟨hjoins, hexisted, hstays⟩ := h.joins.step hJ hp hn hs hgrants mv
  obtain ⟨c, hc, hleft⟩ := h.left
  have hothers : ∀ y d, y ≠ x → (m.step mv).chain? y = some d → d.hasEnded = true := by
    intro y d hy hd
    obtain ⟨e, he⟩ := hexisted y d hd
    have hended := h.others y e hy he
    rw [Machine.chain?_of_hasEnded he hended] at hd
    cases hd
    exact hended
  by_cases hmv : mv = .run x
  · subst hmv
    obtain ⟨d, hd, hle, hmoved⟩ := h.step_run hc
    exact ⟨_, hle, ⟨hjoins, ⟨d, hd, rfl⟩, hothers⟩,
      fun _ => hmoved.imp_right fun hwaits => ⟨c, hc, hwaits⟩⟩
  · have hhandles : (m.step mv).launcher.handles = m.launcher.handles := by
      refine Machine.handles_step fun y d hy hd => ?_
      have hended := h.others y d (by rintro rfl; exact hmv hy) hd
      obtain ⟨o, hs'⟩ := Machine.stage_of_hasEnded hended
      rw [hs']
      exact ⟨nofun, nofun⟩
    have hsame : (m.step mv).toJoin c = n := by
      rw [← hleft, Machine.toJoin, Machine.toJoin, hhandles]
    exact ⟨n, Nat.le_refl n, ⟨hjoins, ⟨c, hstays c hmv hc, hsame⟩, hothers⟩,
      fun he => absurd he hmv⟩

omit hJ hp hn hs hgrants in
lemma Stands.joins_ofJoin (h : J.Stands k P m) (hlisted : m.Listed) :
    J.Joins k m.nextChain (m.addChain .ofJoin).2 := by
  constructor
  case host => exact ⟨_, h.host_ofJoin, P.assign_self ..⟩
  case listed => exact hlisted.addChain .ofJoin
  case chain => exact ⟨_, m.chain?_addChain _, rfl⟩
  case before =>
    intro y c hy hc
    rw [Machine.chain?_addChain_eq, if_neg (mt Machine.eq_nextChain_iff.mpr hy)] at hc
    exact (Array.getElem?_eq_some_iff.mp hc).1

/-- Every chain but the one that joins tasks comes to its end. -/
lemma Stands.ends_others (h : J.Stands k P m) (hzero : run 0 = (m.addChain .ofJoin).2)
    (hrun : Machine.IsRun run) (hfair : ∀ x, Machine.Fair run x) (hc : m.chain? y = some c) :
    ∃ j, (run (0 + j)).hasEnded y = true := by
  have hhost := h.host_ofJoin
  have hy := Machine.chain?_addChain_of_some hc .ofJoin
  have hne : y ≠ m.nextChain := by
    rintro rfl
    exact absurd (Array.getElem?_eq_some_iff.mp hc).1 (Nat.lt_irrefl _)
  rcases hhost.others y hne c hy with hended | ⟨i, t, hrole⟩
  · refine ⟨0, ?_⟩
    rw [hzero, Machine.hasEnded, hy]
    exact hended
  · obtain ⟨n, hleft⟩ := hhost.crew.exists_left hJ hy (by rw [hrole]; exact Role.noConfusion)
    rw [← hzero] at hhost hy
    have hnears : J.Nears k m.nextChain y n (run 0) := ⟨_, _, hhost, hy, hleft⟩
    exact hrun.ends (hfair y) (fun n m mv h => h.step hJ hp hn hs hgrants mv) hnears

/-- The chain that joins tasks comes to its end. -/
theorem Stands.completes_ofJoin (h : J.Stands k P m) (hlisted : m.Listed) :
    m.Completes .ofJoin := by
  intro run hzero hrun hfair
  have hstart : J.Joins k m.nextChain (run 0) := hzero ▸ h.joins_ofJoin hlisted
  -- first all others come to their ends
  have hends : ∀ y ∈ (List.range m.chains.size).map ChainId.mk,
      ∃ j, (run (0 + j)).hasEnded y = true := by
    intro y hy
    obtain ⟨b, hb, rfl⟩ := List.mem_map.mp hy
    have hlt := List.mem_range.mp hb
    exact h.ends_others hJ hp hn hs hgrants hzero hrun hfair (Array.getElem?_eq_getElem hlt)
  obtain ⟨j, hended⟩ := hrun.all_ended hends
  have hjoins : J.Joins k m.nextChain (run (0 + j)) :=
    hrun.keeps (fun m mv (h : J.Joins k _ m) => (h.step hJ hp hn hs hgrants mv).1) hstart j
  obtain ⟨c, hc, -⟩ := hjoins.chain
  have hlingers : J.Lingers k m.nextChain ((run (0 + j)).toJoin c) (run (0 + j)) := by
    refine ⟨hjoins, ⟨c, hc, rfl⟩, fun y d hy hd => ?_⟩
    have hlt := List.mem_range.mpr (hjoins.before y d hy hd)
    have hdone := hended y (List.mem_map.mpr ⟨y.index, hlt, rfl⟩)
    rwa [Machine.hasEnded, hd] at hdone
  -- then it ends itself
  obtain ⟨j', hdone⟩ := hrun.ends (hfair _) (fun n m mv h => h.step hJ hp hn hs hgrants mv) hlingers
  obtain ⟨o, ho⟩ := Machine.outcome_of_hasEnded hdone
  exact ⟨_, o, ho⟩

end

end Jobs

end Flowgraph
