import Flowgraph.Proofs.Apart.Opening
import Flowgraph.Proofs.Tasks.Joinable

/-!
# Moves of a crew

Whatever moves, jobs that have begun go on as they do by themselves, and no chain that does not wait
for others is further from its end than before.
-/

namespace Flowgraph

open Named Store

/-- The stages in which a chain is about to send or to receive. -/
def Stage.isExchanging : Stage → Bool
  | .send _ _ _ | .receive _ _ _ => true
  | _ => false

/-- The stages in which a chain deals with others. -/
def Stage.isDealing : Stage → Bool
  | .spawn _ | .launch _ _ | .enlist _ | .join _ => true
  | stage => stage.isExchanging

lemma Stage.isDealing_of_isSolo {stage : Stage} (h : stage.isSolo = true) :
    stage.isDealing = false := by
  cases stage <;> first | rfl | cases h

lemma Stage.isExchanging_of_not_dealing {stage : Stage} (h : stage.isDealing = false) :
    stage.isExchanging = false := by
  cases stage <;> first | rfl | cases h

lemma Chain.Parting.not_dealing {p : Program} {o : Outcome} {c : Chain} (h : c.Parting p o) :
    c.stage.isDealing = false := by
  cases h with
  | settled h => cases h <;> simp_all [Stage.isDealing, Stage.isExchanging]
  | following _ _ hs | walking _ hs => rw [hs]; rfl

namespace Machine

variable {m : Machine} {x : ChainId} {c : Chain}

lemma step_seeClosed (h : ∀ c, m.chain? x = some c → c.stage.isExchanging = false) :
    m.step (.seeClosed x) = m := by
  rw [step, seeClosed]
  cases hc : m.chain? x with
  | none => rfl
  | some c =>
    have hs := h c hc
    dsimp only
    split
    case h_1 hs' | h_2 hs' =>
      rw [hs'] at hs
      cases hs
    case h_3 => rfl

lemma step_run_none (h : m.chain? x = none) : m.step (.run x) = m := by
  rw [step, run, h]

end Machine

namespace Jobs

variable {J : Jobs} {k : Nat} {P Q : Plan} {m m' : Machine} {x : ChainId} {c : Chain} {r : Role}
  {mv : Move}

/-- What a move comes to, whoever makes it. -/
structure Change (J : Jobs) (k : Nat) (P : Plan) (m : Machine) (mv : Move) (Q : Plan)
    (m' : Machine) : Prop where
  crew : J.Crew k Q m'
  turnover : J.Turnover m.launcher.started P.roles Q.roles m'.launcher.started
  others : ∀ y d, mv ≠ .run y → m.chain? y = some d →
    m'.chain? y = some d ∧ Q.roles y = P.roles y
  created : ∀ y d, m.chain? y = none → m'.chain? y = some d →
    ∃ z i t, P.roles z = .holds i (some t) ∧ Q.roles y = .serves i [] (some t)
  left : ∀ y c n, m.chain? y = some c → J.Left P (P.roles y) c n →
    ∃ d n', m'.chain? y = some d ∧ J.Left Q (Q.roles y) d n' ∧ n' ≤ n ∧
      (mv = .run y → n' < n ∨ n' = n ∧ d = c ∧ m.Waits c)

/-- When only a chain moves, a move is its move. -/
lemma Shift.change (hs : J.Shift k P m x c Q m') (h : J.Crew k P m) (hc : m.chain? x = some c) :
    J.Change k P m (.run x) Q m' := by
  have hothers : ∀ y d, Move.run x ≠ .run y → m.chain? y = some d →
      m'.chain? y = some d ∧ Q.roles y = P.roles y := fun y d hy hd =>
    hs.others y d (fun he => hy (congrArg Move.run he.symm)) hd
  refine ⟨hs.crew, hs.turnover, hothers, hs.created, fun y d n hd hleft => ?_⟩
  by_cases hyx : y = x
  · subst hyx
    rw [hc] at hd
    cases hd
    obtain ⟨d, n', hd, hleft', hn⟩ := hs.left n hleft
    refine ⟨d, n', hd, hleft', ?_, fun _ => hn⟩
    rcases hn with hlt | ⟨rfl, -⟩
    · exact Nat.le_of_lt hlt
    · exact Nat.le_refl _
  · obtain ⟨hd', hroles⟩ := hs.others y d hyx hd
    refine ⟨d, n, hd', ?_, Nat.le_refl n, fun he => absurd (Move.run.inj he).symm hyx⟩
    rw [hroles]
    exact hleft.congr fun i hi => hs.jobs i fun hx => hyx (h.unique y x i hi hx)

namespace Crew

section Quiet

variable (hsolo : ∀ i g, P.shares i = some g → (P.points i).stage.isSolo = true)

include hsolo

/-- A chain that does a job has nothing to do with others. -/
lemma not_dealing {i : Nat} {base : List Walk} {task : Option TaskId}
    (h : J.Plays P (.serves i base task) c) : c.stage.isDealing = false := by
  cases h with
  | serves hi _ _ hshows =>
    cases hshows with
    | within _ hs _ =>
      rw [hs]
      exact Stage.isDealing_of_isSolo ((Chain.isSolo_rename _).trans (hsolo _ _ hi))
    | asleep _ _ hs => rw [hs]; rfl
    | finished _ hp => exact hp.not_dealing

/-- No chain sends or receives. -/
lemma not_exchanging (h : J.Plays P r c) : c.stage.isExchanging = false := by
  cases h with
  | rests hp => exact Stage.isExchanging_of_not_dealing hp.not_dealing
  | joins hj =>
    rcases hj with ⟨-, chains, hs⟩ | hp
    · rw [hs]; rfl
    · exact Stage.isExchanging_of_not_dealing hp.not_dealing
  | opens => rfl
  | enlists _ _ hs | bound _ _ _ _ hs | numbered _ _ _ _ hs => rw [hs]; rfl
  | serves hi hbelow htask hshows =>
    exact Stage.isExchanging_of_not_dealing (not_dealing hsolo (.serves hi hbelow htask hshows))

end Quiet

/-- A move that changes no chain and no store. -/
lemma unchanged (h : J.Crew k P m) (hp : m'.program = m.program) (hs : m'.store = m.store)
    (hl : m'.launcher = m.launcher) (hc : ∀ x, m'.chain? x = m.chain? x)
    (hrun : ∀ x c, mv = .run x → m.chain? x ≠ some c) : J.Change k P m mv P m' where
  crew := h.congr hp hs hc
  turnover := hl ▸ .stays
  others y _ _ hy := ⟨(hc y).trans hy, rfl⟩
  created y d hy hd := by
    rw [hc y, hy] at hd
    cases hd
  left y c n hy hleft := ⟨c, n, (hc y).trans hy, hleft, Nat.le_refl n, fun he =>
    absurd hy (hrun y c he)⟩

/-- Jobs go on, or begin, in every move. -/
theorem step (hJ : J.Independent) (hp : J.start.program.Loaded)
    (hn : J.start.program.natives.Blind) (hs : J.start.store.Closed)
    (hgrants : J.start.program.config.Grants) (h : J.Crew k P m) (mv : Move) :
    ∃ Q, J.Change k P m mv Q (m.step mv) := by
  cases mv with
  | pass microseconds =>
    exact ⟨P, h.unchanged rfl rfl rfl (fun _ => rfl) (by rintro x c ⟨⟩)⟩
  | seeClosed x =>
    have hquiet : ∀ c, m.chain? x = some c → c.stage.isExchanging = false := fun c hc =>
      not_exchanging (fun i g hi => (h.sound hJ hp hn hs hi).2.2.2.1) (h.plays x c hc)
    rw [Machine.step_seeClosed hquiet]
    exact ⟨P, h.unchanged rfl rfl rfl (fun _ => rfl) (by rintro x c ⟨⟩)⟩
  | run x =>
    cases hc : m.chain? x with
    | none =>
      rw [Machine.step_run_none hc]
      refine ⟨P, h.unchanged rfl rfl rfl (fun _ => rfl) ?_⟩
      rintro y c ⟨⟩
      rw [hc]
      rintro ⟨⟩
    | some c =>
      have hshift : ∃ Q, J.Shift k P m x c Q (m.step (.run x)) := by
        cases hx : P.roles x with
        | rests o => exact ⟨P, h.step_rests hx hc⟩
        | joins => exact ⟨P, h.step_joins hx hc⟩
        | serves i base task => exact h.step_serves hJ hp hn hs hx hc
        | holds i number =>
          cases number with
          | none => exact ⟨_, h.step_bound hx hc⟩
          | some t => exact ⟨_, h.step_numbered hgrants hx hc⟩
        | opens i node =>
          have hplays := h.plays x c hc
          rw [hx] at hplays
          cases h.latest x i node hx
          cases hplays with
          | opens _ hnode =>
            rcases hnode with rfl | rfl
            · exact h.step_spawn hJ hp hs hx hc
            · exact h.step_call hJ hp hs hx hc
      obtain ⟨Q, hQ⟩ := hshift
      exact ⟨Q, hQ.change h hc⟩

end Crew

end Jobs

end Flowgraph
