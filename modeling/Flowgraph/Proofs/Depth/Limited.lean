import Mathlib.Tactic.Common
import Flowgraph.Proofs.Drive

/-!
# Limits on nesting

A limit on nesting is looked at in one place only, which is where a declared function is started. A
machine with a limit makes every other move as the machine without a limit does, and so it does with
functions that are started within the limit.
-/

namespace Flowgraph

/-- The same program with a limit on nesting. -/
def Program.limited (p : Program) (limit : Nat) : Program :=
  { p with config := { p.config with maxCallDepth := some limit } }

/-- Natives that do not look at the configuration. -/
def Registry.Oblivious (r : Registry) : Prop :=
  ∀ name symbol, r.symbol? name = some symbol →
    ∀ config config' s args, symbol.run config s args = symbol.run config' s args

/-- A chain does not start a declared function beyond a limit. -/
def Chain.StartsWithin (limit : Nat) (c : Chain) : Prop :=
  ∀ depth a, c.stage = .start depth (.declared a) → depth ≤ limit

namespace Chain

variable {p : Program} {c : Chain} {limit : Nat}

lemma start_limited (hnone : p.config.maxCallDepth = none) (hnatives : p.natives.Oblivious)
    {depth : Nat} {callee : Callee} (h : ∀ a, callee = .declared a → depth ≤ limit) :
    c.start (p.limited limit) depth callee = c.start p depth callee := by
  cases callee with
  | declared a =>
    have hle : ¬limit < depth := Nat.not_lt_of_le (h a rfl)
    simp only [start, Program.limited, hnone, if_neg hle]
  | native name args =>
    have hsame : (p.limited limit).natives = p.natives := rfl
    simp only [start, hsame]
    cases hname : p.natives.symbol? name with
    | none => rfl
    | some symbol =>
      have hrun : ∀ s, symbol.run (p.limited limit).config s args = symbol.run p.config s args :=
        fun s => hnatives name symbol hname _ _ s args
      simp only [hrun]

/-- A chain makes the same step by itself, whether there is a limit that it keeps to or none. -/
theorem advance_limited (hnone : p.config.maxCallDepth = none) (hnatives : p.natives.Oblivious)
    (h : c.StartsWithin limit) : c.advance (p.limited limit) = c.advance p := by
  cases hs : c.stage
  case start depth callee =>
    simp only [advance, hs]
    rw [start_limited hnone hnatives fun a ha => h depth a (ha ▸ hs)]
  all_goals simp only [advance, hs]
  all_goals rfl

end Chain

namespace Machine

/-- The same machine with a limit on nesting. -/
def limited (m : Machine) (limit : Nat) : Machine :=
  { m with program := m.program.limited limit }

variable {m : Machine} {id x : ChainId} {c : Chain} {ch : ChannelId} {limit : Nat}

/-! ### Exchange -/

lemma callSender_limited : (m.limited limit).callSender ch = (m.callSender ch).limited limit := by
  have hsame : (m.limited limit).waitingSender? ch = m.waitingSender? ch := rfl
  simp only [callSender, hsame]
  cases m.waitingSender? ch <;> rfl

lemma callReceiver_limited :
    (m.limited limit).callReceiver ch = (m.callReceiver ch).limited limit := by
  have hsame : (m.limited limit).waitingReceiver? ch = m.waitingReceiver? ch := rfl
  simp only [callReceiver, hsame]
  cases m.waitingReceiver? ch <;> rfl

lemma give?_limited {v : Value} :
    (m.limited limit).give? id c ch v = (m.give? id c ch v).map (·.limited limit) := by
  have hroom : ((m.limited limit).mapStore fun s => s.pushValue ch v).callReceiver ch =
      ((m.mapStore fun s => s.pushValue ch v).callReceiver ch).limited limit :=
    callReceiver_limited (m := m.mapStore fun s => s.pushValue ch v)
  have hsame : (m.limited limit).waitingReceiver? ch = m.waitingReceiver? ch := rfl
  have hstore : (m.limited limit).store = m.store := rfl
  simp only [give?, hroom, hsame, hstore]
  split_ifs
  · rfl
  · cases m.waitingReceiver? ch <;> rfl
  · rfl

lemma take?_limited {purpose : Purpose} :
    (m.limited limit).take? id c ch purpose = (m.take? id c ch purpose).map (·.limited limit) := by
  have hbuffered : ((m.limited limit).mapStore fun s => s.popValue ch).callSender ch =
      ((m.mapStore fun s => s.popValue ch).callSender ch).limited limit :=
    callSender_limited (m := m.mapStore fun s => s.popValue ch)
  have hsame : (m.limited limit).waitingSender? ch = m.waitingSender? ch := rfl
  have hstore : (m.limited limit).store = m.store := rfl
  simp only [take?, hbuffered, hsame, hstore]
  split
  · rfl
  · split_ifs
    · cases m.waitingSender? ch <;> rfl
    · rfl

lemma send_limited {v : Value} {phase : SendPhase} :
    (m.limited limit).send id c ch v phase = (m.send id c ch v phase).limited limit := by
  have hstore : (m.limited limit).store = m.store := rfl
  cases phase with
  | check | parked =>
    simp only [send, hstore]
    split_ifs <;> rfl
  | offer =>
    simp only [send, hstore, give?_limited]
    cases m.give? id c ch v with
    | some m' => rfl
    | none =>
      simp only [Option.map_none]
      split_ifs <;> rfl

lemma receive_limited {purpose : Purpose} {phase : ReceivePhase} :
    (m.limited limit).receive id c ch purpose phase =
      (m.receive id c ch purpose phase).limited limit := by
  have hstore : (m.limited limit).store = m.store := rfl
  cases phase with
  | check => rfl
  | parked =>
    simp only [receive, hstore]
    split_ifs <;> rfl
  | attempt | drain =>
    simp only [receive, take?_limited]
    cases m.take? id c ch purpose <;> rfl
  | offer =>
    simp only [receive, hstore, take?_limited]
    cases m.take? id c ch purpose with
    | some m' => rfl
    | none =>
      simp only [Option.map_none]
      split_ifs <;> rfl

lemma seeClosed_limited : (m.limited limit).seeClosed id = (m.seeClosed id).limited limit := by
  have hstore : (m.limited limit).store = m.store := rfl
  have hchain : (m.limited limit).chain? id = m.chain? id := rfl
  simp only [seeClosed, hstore, hchain]
  cases m.chain? id with
  | none => rfl
  | some c =>
    dsimp only
    split
    case h_1 | h_2 => split_ifs <;> rfl
    case h_3 => rfl

/-! ### Tasks and steps of chains by themselves -/

lemma join_limited {chains : List ChainId} :
    (m.limited limit).join id c chains = (m.join id c chains).limited limit := by
  have hended : ∀ y, (m.limited limit).hasEnded y = m.hasEnded y := fun _ => rfl
  have hlauncher : (m.limited limit).launcher = m.launcher := rfl
  cases chains with
  | nil =>
    simp only [join, hlauncher]
    split <;> rfl
  | cons y rest =>
    simp only [join, hended]
    split_ifs <;> rfl

lemma stepChain_limited {step : Op Chain} :
    (m.limited limit).stepChain id c step = (m.stepChain id c step).limited limit := by
  have hstore : (m.limited limit).store = m.store := rfl
  simp only [stepChain_eq, hstore]
  cases step m.store <;> rfl

/-- A move is the same with a limit, unless it starts a declared function beyond the limit. -/
theorem step_limited (hnone : m.program.config.maxCallDepth = none)
    (hnatives : m.program.natives.Oblivious) {mv : Move}
    (h : ∀ id c, mv = .run id → m.chain? id = some c → c.StartsWithin limit) :
    (m.limited limit).step mv = (m.step mv).limited limit := by
  cases mv with
  | pass microseconds => rfl
  | seeClosed id => exact seeClosed_limited
  | run id =>
    have hchain : (m.limited limit).chain? id = m.chain? id := rfl
    cases hc : m.chain? id with
    | none => simp only [step, run, hchain, hc]
    | some c =>
      cases ha : c.advance m.program with
      | some op =>
        have hlimited : c.advance (m.limited limit).program = some op :=
          (Chain.advance_limited hnone hnatives (h id c rfl hc)).trans ha
        rw [step, step, run_of_advance hc ha, run_of_advance (hchain.trans hc) hlimited]
        exact stepChain_limited
      | none =>
        simp only [step, run, hchain, hc]
        cases hs : c.stage
        all_goals dsimp only
        case send => exact send_limited
        case receive => exact receive_limited
        case sleep =>
          simp only [wake]
          change (if _ ≤ m.clock then _ else _) = _
          split_ifs <;> rfl
        case join => exact join_limited
        case exit =>
          simp only [record]
          split <;> rfl
        case leave =>
          simp only [retire]
          split_ifs <;> rfl
        case launch task _ =>
          have hrefusal : (m.limited limit).program.config.refusal? task.index =
              m.program.config.refusal? task.index := rfl
          simp only [launch, hrefusal]
          split <;> rfl
        case pause | spawn | withdraw | enlist => rfl
        all_goals simp [Chain.advance, hs] at ha

/-! ### Schedules -/

lemma nextMove?_limited {i count : Nat} :
    (m.limited limit).nextMove? i count = m.nextMove? i count := by
  induction count generalizing i with
  | zero => rfl
  | succ count ih =>
    simp only [nextMove?, ih]
    rfl

/-- A schedule does not look at limits. -/
lemma tick?_limited {goal : ChainId} {turn : Turn} :
    (m.limited limit).tick? goal turn = m.tick? goal turn := by
  have hchoose : (m.limited limit).choose? turn = m.choose? turn := by
    simp only [choose?, nextMove?_limited]
    rfl
  simp only [tick?, hchoose]
  rfl

end Machine

end Flowgraph
