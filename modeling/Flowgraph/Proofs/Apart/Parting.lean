import Flowgraph.Proofs.Apart.Alone
import Flowgraph.Proofs.Locality

/-!
# Jobs above a walk

A job is done by a chain of its own, or by a chain that was at a node and goes on from there when
the job is done. Either chain does what the job's own chain does, step by step. What it does after
that concerns no store.
-/

namespace Flowgraph

open Named Store

variable {p : Program} {s s' : Store} {c c' d e e' : Chain} {o : Outcome} {base : List Walk}
  {id : NodeId}

/-- The walk at a node in the global frame. -/
def Walk.atNode (id : NodeId) : Walk := ⟨⟨globalFrame, id, some id, 0⟩, some id, 0⟩

/-- Nothing comes after a node. -/
def Program.Last (p : Program) (id : NodeId) : Prop :=
  ∃ n, p.node id = .ok n ∧ n.next = none ∧ n.otherwise = none

lemma Program.Last.successor (h : p.Last id) (f : FrameId) (s : Store) :
    p.successor f id s = .ok none := by
  obtain ⟨n, hn, hnext, hotherwise⟩ := h
  have hlift : (liftM (Except.ok n : Except Stop Node) : Look Node) = pure n := rfl
  rw [Program.successor, hn, hlift, pure_bind, hotherwise, hnext]
  rfl

/-- An activation without results returns none. -/
lemma Program.results_of_zero {a : Activation} (h : a.results = 0) (s : Store) :
    Program.results a s = .ok [] := by
  have hread : ∀ f : Store → Look (List Value), (read >>= f) s = f s s := fun _ => rfl
  have hrange : s.range? a.frame 0 0 = some [] := by simp [Store.range?]
  rw [Program.results, hread, h, hrange]
  rfl

/-- There is nothing below a job, or it was begun by a node that takes no results and that nothing
comes after. -/
def Program.Below (p : Program) (base : List Walk) : Prop :=
  base = [] ∨ ∃ id n, base = [.atNode id] ∧ p.node id = .ok n ∧ n.slot = none ∧ p.Last id

/-- The outcome of a chain that has done a job. A chain that was at a node has no results. -/
def Outcome.past (base : List Walk) : Outcome → Outcome
  | .ok vs => if base.isEmpty then .ok vs else .ok []
  | .error e => .error e

/-- How many moves a chain has left when all that it has to do is to come to its end. -/
def Stage.tail : Stage → Nat
  | .enlist _ => 6
  | .follow => 5
  | .walk => 4
  | .deliver _ => 3
  | .exit _ => 2
  | .leave _ => 1
  | _ => 0

namespace Chain

/-! ### The end of a chain -/

/-- All that a chain has still to do is to come to its end. -/
inductive Parting (p : Program) : Outcome → Chain → Prop
  | settled {o : Outcome} {c : Chain} (h : c.Settled (some o)) : Parting p o c
  | following {id : NodeId} {c : Chain} (hid : p.Last id) (hw : c.walks = [.atNode id])
    (hs : c.stage = .follow) : Parting p (.ok []) c
  | walking {id : NodeId} {c : Chain} (hw : c.walks = [{ Walk.atNode id with node := none }])
    (hs : c.stage = .walk) : Parting p (.ok []) c

lemma parting_exit (o : Outcome) : (c.exit o).Parting p o := .settled (.exiting rfl)

/-- A bound on how many moves a chain has left that does a job, if the job has so many steps left.
-/
def due : Nat → Chain → Nat
  | 0, c => c.stage.tail
  | n + 1, c => 2 * n + if c.stage matches .sleep _ then 8 else 9

/-- When the job has come one step on, there are fewer moves left. -/
lemma due_lt_due (c d : Chain) (n : Nat) : d.due n < c.due (n + 1) := by
  have hge : 2 * n + 8 ≤ c.due (n + 1) := by
    simp only [due]
    split_ifs <;> omega
  cases n with
  | zero =>
    refine Nat.lt_of_lt_of_le ?_ hge
    simp only [due, Stage.tail]
    split <;> omega
  | succ n =>
    refine Nat.lt_of_lt_of_le ?_ hge
    simp only [due]
    split_ifs <;> omega

lemma due_le (c : Chain) (n : Nat) : c.due n ≤ 2 * n + 7 := by
  cases n with
  | zero =>
    simp only [due, Stage.tail]
    split <;> omega
  | succ n =>
    simp only [due]
    split_ifs <;> omega

/-- A chain that has ended has ended with the outcome that it was coming to. -/
lemma Parting.of_ended {o' : Outcome} (h : c.Parting p o) (hs : c.stage = .ended o') : o' = o := by
  cases h with
  | settled h => exact Option.some.inj (h.of_outcome? (by rw [outcome?, hs])).symm
  | _ => simp_all

/-! ### Doing a job -/

/-- A chain does a job: it is where the job's own chain is, or it is done with it. -/
inductive Shows (p : Program) (base : List Walk) (e c : Chain) : Prop
  | within (hw : c.walks = e.walks ++ base) (hs : c.stage = e.stage)
      (hexit : ∀ o, e.stage ≠ .exit o)
  | asleep {milliseconds time : Nat} (hw : c.walks = e.walks ++ base)
    (he : e.stage = .pause milliseconds) (hs : c.stage = .sleep time)
  | finished {o : Outcome} (he : e.stage = .exit o) (hc : c.Parting p (o.past base))

lemma shows_exit (o : Outcome) (h : base = []) : (e.exit o).Shows p base (c.exit o) := by
  subst h
  refine .finished rfl ?_
  cases o <;> exact parting_exit _

lemma shows_stopped (h : c.walks = e.walks ++ base) (stop : Stop) :
    (Machine.stopChain e stop).Shows p base (Machine.stopChain c stop) := by
  cases stop with
  | endless => exact .within h rfl fun o he => by cases he
  | fault | panic => exact .finished rfl (parting_exit _)

section Agreement

variable (hw : c.walks = e.walks ++ base)

include hw

lemma agree_shown_walk (hne : e.walks ≠ []) :
    Op.Agree (fun d d' => d'.Shows p base d ∧ d.task = c.task) (c.walk p) (e.walk p) := by
  obtain ⟨w, ws, he⟩ := List.exists_cons_of_ne_nil hne
  rw [he, List.cons_append] at hw
  simp only [walk, hw, he]
  cases w.node with
  | none => exact .bind _ fun vs => .pure ⟨.within rfl rfl (by rintro o ⟨⟩), rfl⟩
  | some id =>
    refine .bind _ fun pending => .pure ⟨.within rfl rfl fun o ho => ?_, rfl⟩
    cases pending <;> cases ho

lemma agree_shown_follow (hne : e.walks ≠ []) :
    Op.Agree (fun d d' => d'.Shows p base d ∧ d.task = c.task) (c.follow p) (e.follow p) := by
  obtain ⟨⟨a, node, depth⟩, ws, he⟩ := List.exists_cons_of_ne_nil hne
  rw [he, List.cons_append] at hw
  simp only [follow, hw, he]
  cases node with
  | none => exact .pure ⟨.within rfl rfl (by rintro o ⟨⟩), rfl⟩
  | some id =>
    exact .bind _ fun next => .pure ⟨.within rfl rfl (by rintro o ⟨⟩), rfl⟩

lemma agree_shown_reply (reply : Reply) :
    Op.Agree (fun d d' => d'.Shows p base d ∧ d.task = c.task) (c.reply reply) (e.reply reply) := by
  cases reply with
  | results vs => exact .pure ⟨.within hw rfl (by rintro o ⟨⟩), rfl⟩
  | print line vs =>
    exact .bind _ fun _ => .pure ⟨.within hw rfl (by rintro o ⟨⟩), rfl⟩
  | stop stop => exact .throw stop
  | call f args => exact .pure ⟨.within hw rfl (by rintro o ⟨⟩), rfl⟩

lemma agree_shown_start (depth : Nat) (callee : Callee) :
    Op.Agree (fun d d' => d'.Shows p base d ∧ d.task = c.task) (c.start p depth callee)
      (e.start p depth callee) := by
  cases callee with
  | declared a =>
    have henter : Op.Agree (fun d d' => d'.Shows p base d ∧ d.task = c.task)
        (pure (c.enter a depth) : Op Chain) (pure (e.enter a depth)) := by
      have hwalks : (c.enter a depth).walks = (e.enter a depth).walks ++ base := by
        simp only [enter, hw, List.cons_append]
      exact .pure ⟨.within hwalks rfl (by rintro o ⟨⟩), rfl⟩
    simp only [start]
    cases p.config.maxCallDepth with
    | none => exact henter
    | some limit =>
      dsimp only
      split_ifs
      · exact .throw _
      · exact henter
  | native name args =>
    simp only [start]
    cases p.natives.symbol? name with
    | some symbol => exact .get fun t => agree_shown_reply hw _
    | none => exact .throw _

/-- Results are delivered within the job, or they are the job's own. Then the node below drops
them. -/
lemma agree_shown_deliver (hbelow : p.Below base) (hfit : e.Fits p) {vs : List Value}
    (hs : e.stage = .deliver vs) :
    Op.Agree (fun d d' => d'.Shows p base d ∧ d.task = c.task) (c.deliver p vs)
      (e.deliver p vs) := by
  cases he : e.walks with
  | nil =>
    rw [he, List.nil_append] at hw
    simp only [deliver, hw, he]
    rcases hbelow with hbase | ⟨id, n, hbase, hn, hslot, hlast⟩
    · simp only [hbase]
      exact .pure ⟨shows_exit _ rfl, rfl⟩
    · simp only [hbase, Walk.atNode]
      intro s
      rw [Op.bind_apply, Program.storeResults_none hn hslot]
      exact .ok s ⟨.finished rfl (.following hlast rfl rfl), rfl⟩
  | cons w ws =>
    obtain ⟨a, node, depth⟩ := w
    obtain ⟨id, rfl⟩ := hfit.topmost he (by rw [hs]; rfl)
    rw [he, List.cons_append] at hw
    simp only [deliver, hw, he]
    exact .bind _ fun _ => .pure ⟨.within rfl rfl (by rintro o ⟨⟩), rfl⟩

/-- The chain that does a job does what the job's own chain does. -/
lemma agree_shown (hbelow : p.Below base) (hr : e.Regular p) (hsolo : e.stage.isSolo = true)
    (hs : c.stage = e.stage) {step : Op Chain} (ha : e.advance p = some step) :
    ∃ step', c.advance p = some step' ∧
      Op.Agree (fun d d' => d'.Shows p base d ∧ d.task = c.task) step' step := by
  simp only [advance, hs]
  cases he : e.stage with
  | walk =>
    rw [advance, he] at ha
    cases ha
    exact ⟨_, rfl, agree_shown_walk hw (hr.walking (by rw [he]; rfl))⟩
  | follow =>
    rw [advance, he] at ha
    cases ha
    exact ⟨_, rfl, agree_shown_follow hw (hr.walking (by rw [he]; rfl))⟩
  | call callee receiver args =>
    rw [advance, he] at ha
    cases ha
    exact ⟨_, rfl, .bind _ fun bound => .pure ⟨.within hw rfl (by rintro o ⟨⟩), rfl⟩⟩
  | start depth callee =>
    rw [advance, he] at ha
    cases ha
    exact ⟨_, rfl, agree_shown_start hw depth callee⟩
  | deliver vs =>
    rw [advance, he] at ha
    cases ha
    exact ⟨_, rfl, agree_shown_deliver hw hbelow hr.fits he⟩
  | _ =>
    rw [he] at hsolo
    simp_all [advance, Stage.isSolo]

/-- A step of the job's own chain is a step of the chain that does the job. -/
theorem next_shown (hbelow : p.Below base) (hr : e.Regular p) (hsolo : e.stage.isSolo = true)
    (hs : c.stage = e.stage) (hpause : ∀ milliseconds, e.stage ≠ .pause milliseconds)
    (hn : e.next p s = some (e', s')) :
    ∃ c', c.next p s = some (c', s') ∧ e'.Shows p base c' ∧ c'.task = c.task := by
  cases ha : e.advance p with
  | none =>
    cases he : e.stage with
    | pause milliseconds => exact absurd he (hpause milliseconds)
    | _ => simp [next, he, ha] at hn
  | some step =>
    obtain ⟨step', ha', hagree⟩ := agree_shown hw hbelow hr hsolo hs ha
    rw [next_of_advance ha] at hn
    rw [next_of_advance ha']
    have halike := hagree s
    generalize step s = r at hn halike
    generalize step' s = r' at halike
    cases halike with
    | ok t h =>
      cases hn
      exact ⟨_, rfl, h⟩
    | error stop t =>
      cases hn
      refine ⟨_, rfl, shows_stopped hw stop, ?_⟩
      cases stop <;> rfl

end Agreement

end Chain

end Flowgraph
