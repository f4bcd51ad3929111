import Mathlib.Tactic.Common
import Flowgraph.Proofs.Call.Lockstep
import Flowgraph.Proofs.Locality

/-!
# Calls mean the same everywhere

A node calls, or a host does. Once callee, receiver and arguments are known, both do the same:
they stop alike, or have the same results, and leave the same store behind.
-/

namespace Flowgraph

namespace Program

variable {p : Program} {s : Store} {f : FrameId} {id : NodeId} {n : Node} {callee : Value}
  {receiver : Option Value} {args : List Value}

/-- A node calls, without forking, and in a frame its operands denote a callee, a receiver and
arguments. -/
structure Calls (p : Program) (s : Store) (f : FrameId) (id : NodeId) (n : Node) (callee : Value)
    (receiver : Option Value) (args : List Value) : Prop where
  node : p.node id = .ok n
  kind : n.kind = .call
  plain : n.isFork = false
  callee : ∃ operand part, p.child id 0 = .ok operand ∧ p.value f operand s = .ok callee ∧
    p.receiverPart operand = .ok part ∧ p.receiverValue f part s = .ok receiver
  args : p.allValues f (n.children.drop 1) s = .ok args

/-- A node binds its call as if the values had been given. -/
lemma bindCall_of_calls (h : p.Calls s f id n callee receiver args) :
    p.bindCall f id "call" s = p.bindValues callee receiver args s := by
  obtain ⟨operand, part, hoperand, hcallee, hpart, hreceiver⟩ := h.callee
  simp only [bindCall, Op.except_bind_apply, Op.look_bind_apply, h.node, hoperand, hpart, hcallee]
  cases callee with
  | func decl env =>
    simp only [Op.look_bind_apply, hreceiver, h.args, h.plain, bindValues]
    rfl
  | native name =>
    simp only [Op.look_bind_apply, hreceiver, h.args, bindValues]
  | _ => rfl

lemma perform_of_calls (h : p.Calls s f id n callee receiver args) :
    p.perform f id s = (do return .call (← p.bindValues callee receiver args) : Op Pending) s := by
  rw [perform, Op.except_bind_apply, h.node]
  dsimp only
  rw [h.kind, operation, Op.bind_apply, Op.bind_apply, bindCall_of_calls h]

end Program

variable {p : Program} {m m' : Machine} {id x : ChainId} {c c' : Chain} {a : Activation}
  {node : NodeId} {depth : Nat} {rest : List Walk} {n : Node} {callee : Value}
  {receiver : Option Value} {args vs : List Value}

/-! ### How a call begins -/

namespace Chain

/-- A walk at the node does what the beginning of a host's call does. -/
lemma alike_call {s : Store} (hw : c.walks = ⟨a, some node, depth⟩ :: rest)
    (hcall : p.Calls s a.frame node n callee receiver args) :
    Op.Alike (Chain.Alike c.walks) (c.walk p s)
      ((do return { ofCall callee receiver args with
        stage := .start 1 (← p.bindValues callee receiver args) } : Op Chain) s) := by
  simp only [Chain.walk, hw, Op.bind_apply, Program.perform_of_calls hcall]
  cases p.bindValues callee receiver args s with
  | ok bound s' => exact .ok s' (Or.inl ⟨⟨[], rfl, .nil⟩, .start _ _ _, rfl, fun _ => rfl⟩)
  | error e s' => exact .error e s'

/-! ### How a call ends -/

/-- A chain of the host comes to its end with an outcome, or never. -/
inductive Settled : Option Outcome → Chain → Prop
  | delivering {vs : List Value} {c : Chain} (hw : c.walks = []) (hs : c.stage = .deliver vs) :
    Settled (some (.ok vs)) c
  | exiting {outcome : Outcome} {c : Chain} (hs : c.stage = .exit outcome) :
    Settled (some outcome) c
  | leaving {outcome : Outcome} {c : Chain} (hs : c.stage = .leave outcome) :
    Settled (some outcome) c
  | ended {outcome : Outcome} {c : Chain} (hs : c.stage = .ended outcome) :
    Settled (some outcome) c
  | lost {c : Chain} (hs : c.stage = .lost) : Settled none c

lemma Over.settled {base : List Walk} {outcome : Option Outcome}
    (h : Over base outcome c c') : c'.Settled outcome := by
  cases h with
  | returned _ _ hw' hs' => exact .delivering hw' hs'
  | aborted _ hs' => exact .exiting hs'
  | lost _ hs' => exact .lost hs'

lemma Settled.of_outcome? {outcome : Option Outcome} {o : Outcome} (h : c.Settled outcome)
    (ho : c.outcome? = some o) : outcome = some o := by
  simp only [outcome?] at ho
  cases h with
  | ended hs => rwa [hs] at ho
  | delivering hw hs | exiting hs | leaving hs | lost hs =>
    simp [hs] at ho

/-- Whatever protocols make of the chain, it comes to the same end. -/
lemma Settled.restaged {outcome : Option Outcome} (h : c.Settled outcome)
    (hr : m.Restaged c c') : c'.Settled outcome := by
  cases h with
  | exiting hs =>
    cases hr with
    | leaving hs' =>
      rw [hs] at hs'
      cases hs'
      exact .leaving rfl
    | _ => simp_all
  | leaving hs =>
    cases hr with
    | ended hs' =>
      rw [hs] at hs'
      cases hs'
      exact .ended rfl
    | _ => simp_all
  | delivering hw hs | ended hs | lost hs => cases hr <;> simp_all

/-- By itself, the chain does nothing but come to this end. -/
lemma Settled.advance {outcome : Option Outcome} (h : c.Settled outcome) {p : Program}
    {step : Op Chain} (ha : c.advance p = some step) (s : Store) :
    ∃ o, outcome = some o ∧ step s = .ok (c.exit o) s := by
  cases h with
  | delivering hw hs =>
    rw [Chain.advance, hs] at ha
    cases ha
    refine ⟨_, rfl, ?_⟩
    simp only [deliver, hw]
    rfl
  | exiting hs | leaving hs | ended hs | lost hs => simp [Chain.advance, hs] at ha

end Chain

namespace Machine

lemma settled_step {outcome : Option Outcome}
    (h : ∃ c, m.chain? x = some c ∧ c.Settled outcome) (mv : Move) :
    ∃ c, (m.step mv).chain? x = some c ∧ c.Settled outcome := by
  obtain ⟨c, hc, hsettled⟩ := h
  obtain ⟨d, hd⟩ := exists_chain?_step ⟨c, hc⟩ mv
  refine ⟨d, hd, ?_⟩
  cases next_of_step hc hd with
  | same => exact hsettled
  | restaged hr => exact hsettled.restaged hr
  | advanced _ ha hr =>
    obtain ⟨o, rfl, hstep⟩ := hsettled.advance ha m.store
    rw [hstep] at hr
    cases hr
    exact .exiting rfl
  | stopped _ ha hr =>
    obtain ⟨o, -, hstep⟩ := hsettled.advance ha m.store
    rw [hstep] at hr
    cases hr

lemma settled_moves {outcome : Option Outcome}
    (h : ∃ c, m.chain? x = some c ∧ c.Settled outcome) (moves : List Move) :
    ∃ c, (moves.foldl step m).chain? x = some c ∧ c.Settled outcome := by
  induction moves generalizing m with
  | nil => exact h
  | cons mv moves ih => exact ih (settled_step h mv)

/-! ### The results of a call -/

/-- A call has returned to a node: its slots take as many results as the node is wide, in order.
Results beyond the frame abort the chain. -/
def takeResults (m : Machine) (id : ChainId) (c : Chain) (f : FrameId) (node : NodeId) (n : Node)
    (vs : List Value) : Machine :=
  match n.slot with
  | none => m.setChain id { c with stage := .follow }
  | some slot =>
    if vs.take n.width = [] ∨ slot + (vs.take n.width).length ≤ m.store.frameSize f then
      (m.mapStore fun s => s.putAll f slot (vs.take n.width)).setChain id
        { c with stage := .follow }
    else
      (m.mapStore fun s =>
        s.putAll f slot ((vs.take n.width).take (s.frameSize f - slot))).setChain id
          (c.exit (.error (.malformed node .resultSlotsBeyondFrame)))

lemma step_returned (hn : m.program.node node = .ok n) (hc : m.chain? id = some c)
    (hw : c.walks = ⟨a, some node, depth⟩ :: rest) (hs : c.stage = .deliver vs) :
    m.step (.run id) = m.takeResults id c a.frame node n vs := by
  have ha : c.advance m.program = some (c.deliver m.program vs) := by rw [Chain.advance, hs]
  have hdeliver : c.deliver m.program vs = (do
      m.program.storeResults a.frame node vs
      return { c with stage := .follow }) := by
    simp only [Chain.deliver, hw]
  rw [step, run_of_advance hc ha, stepChain_eq, hdeliver, takeResults]
  cases hslot : n.slot with
  | none =>
    simp only [Op.bind_apply, Program.storeResults_none hn hslot]
    rfl
  | some slot =>
    simp only [Op.bind_apply, Program.storeResults_some hn hslot, Op.setSlots_apply]
    split_ifs <;> rfl

/-! ### Calls of a host -/

lemma exists_moves (h : Reaches m m') : ∃ moves : List Move, m' = moves.foldl step m := by
  induction h with
  | refl m => exact ⟨[], rfl⟩
  | step m mv _ ih =>
    obtain ⟨moves, hmoves⟩ := ih
    exact ⟨mv :: moves, hmoves⟩

/-- The name of the next chain. -/
def nextChain (m : Machine) : ChainId := ⟨m.chains.size⟩

/-- A machine with one more chain, which has made its first step. -/
def beginning (m : Machine) (c : Chain) : Machine := (m.addChain c).2.step (.run m.nextChain)

lemma chain?_addChain (m : Machine) (c : Chain) :
    (m.addChain c).2.chain? m.nextChain = some c := by
  simp only [addChain, nextChain, chain?, Array.getElem?_push, if_true]

lemma exists_chain?_moves (h : ∃ c, m.chain? x = some c) (moves : List Move) :
    ∃ c, (moves.foldl step m).chain? x = some c := by
  induction moves generalizing m with
  | nil => exact h
  | cons mv moves ih => exact ih (exists_chain?_step h mv)

lemma program_moves (m : Machine) (moves : List Move) :
    (moves.foldl step m).program = m.program := by
  induction moves generalizing m with
  | nil => rfl
  | cons mv moves ih => exact (ih _).trans (m.program_step mv)

/-- When a host calls, some moves are made, the first one by the new chain. -/
lemma call_eq_moves (m : Machine) (fuel : Nat) (callee : Value) (receiver : Option Value)
    (args : List Value) : ∃ moves : List Move,
      m.call (fuel + 1) callee receiver args =
        (((moves.foldl step (m.beginning (.ofCall callee receiver args))).chain?
            m.nextChain).bind Chain.outcome?,
          moves.foldl step (m.beginning (.ofCall callee receiver args))) := by
  have hc := m.chain?_addChain (.ofCall callee receiver args)
  have hended : (m.addChain (.ofCall callee receiver args)).2.hasEnded m.nextChain = false := by
    rw [hasEnded, hc]
    rfl
  have hmove : (m.addChain (.ofCall callee receiver args)).2.moveAt? m.chains.size =
      some (.run m.nextChain) := by
    rw [chain?, nextChain] at hc
    rw [moveAt?, hc]
    rfl
  have hchoose : (m.addChain (.ofCall callee receiver args)).2.choose? (.fresh m.chains.size) =
      some (m.chains.size, .run m.nextChain) := by
    simp only [choose?, Turn.fresh, Turn.share, hmove]
    rfl
  obtain ⟨moves, hmoves⟩ := exists_moves (reaches_drive m.nextChain fuel
    ((Turn.fresh m.chains.size).next m.chains.size) (m.beginning (.ofCall callee receiver args)))
  have hdrive : (m.call (fuel + 1) callee receiver args).2 =
      moves.foldl step (m.beginning (.ofCall callee receiver args)) := by
    rw [← hmoves, call, runChain]
    simp only [addChain, nextChain] at hended hchoose ⊢
    have hpace : ¬Turn.pace ≤ (Turn.fresh m.chains.size).spent := Nat.not_succ_le_zero _
    rw [drive, hended, if_neg Bool.false_ne_true, if_neg hpace, hchoose]
    rfl
  refine ⟨moves, Prod.ext ?_ hdrive⟩
  rw [← hdrive]
  rfl

/-! ### The same call at a node and by a host -/

/-- From a machine, a chain that calls at a node goes the same way as a host that calls. -/
structure CallsAlike (m : Machine) (c : Chain) (f : FrameId) (node : NodeId) (n : Node)
    (callee : Value) (receiver : Option Value) (args : List Value) : Prop where
  /-- What a host's call comes to is what its chain comes to by some moves. -/
  host : ∀ fuel, ∃ moves : List Move, m.call (fuel + 1) callee receiver args =
    (((moves.foldl step (m.beginning (.ofCall callee receiver args))).chain?
        m.nextChain).bind Chain.outcome?,
      moves.foldl step (m.beginning (.ofCall callee receiver args)))
  /-- In whichever order moves are made, the machines have the same stores, the same other chains
  and the same tasks, until both calls are over with the same outcome. -/
  alike : ∀ moves : List Move,
    Beside (Chain.Within c.walks) m.nextChain (moves.foldl step (m.beginning c))
        (moves.foldl step (m.beginning (.ofCall callee receiver args))) ∨
      ∃ done todo outcome, moves = done ++ todo ∧
        Beside (Chain.Over c.walks outcome) m.nextChain (done.foldl step (m.beginning c))
          (done.foldl step (m.beginning (.ofCall callee receiver args))) ∧
        ∀ o, ((moves.foldl step (m.beginning (.ofCall callee receiver args))).chain?
          m.nextChain).bind Chain.outcome? = some o → outcome = some o
  /-- Then the node that called takes the results, which changes nothing but its slots. -/
  results : ∀ (moves : List Move) (m' : Machine) (d : Chain) (vs : List Value),
    m' = moves.foldl step (m.beginning c) → m'.chain? m.nextChain = some d →
      d.walks = c.walks → d.stage = .deliver vs →
        m'.step (.run m.nextChain) = m'.takeResults m.nextChain d f node n vs

lemma beside_beginning (hs : c.stage = .walk) (hw : c.walks = ⟨a, some node, depth⟩ :: rest)
    (hcall : m.program.Calls m.store a.frame node n callee receiver args) :
    Beside (Chain.Alike c.walks) m.nextChain (m.beginning c)
      (m.beginning (.ofCall callee receiver args)) := by
  have hadd : Beside (fun _ _ => True) m.nextChain (m.addChain c).2
      (m.addChain (.ofCall callee receiver args)).2 := by
    refine ⟨rfl, rfl, rfl, rfl, rfl, by simp only [addChain, Array.size_push], fun x d hd => ?_⟩
    by_cases hx : x = m.nextChain
    · subst hx
      exact ⟨_, m.chain?_addChain _, .related trivial⟩
    · refine ⟨d, ?_, .equal hx⟩
      have hne : x.index ≠ m.chains.size := fun he => hx (congrArg ChainId.mk he)
      simp only [addChain, chain?, Array.getElem?_push, if_neg hne] at hd ⊢
      exact hd
  have hin := m.chain?_addChain c
  have hcome : Op.Alike (Chain.Alike c.walks) (c.walk m.program m.store) _ :=
    Chain.alike_call hw hcall
  rw [beginning, beginning, step, step, run_of_advance hin (by rw [Chain.advance, hs]),
    run_of_advance (m.chain?_addChain _) rfl]
  exact hadd.stepPlace hin hcome fun e => Chain.alike_stopChain _ _ e

/-- Without a limit on nesting, a call means the same at every node, in every frame and however
deep it is nested, as it means to a host. -/
theorem calls_alike (hlimit : m.program.config.maxCallDepth = none) (hs : c.stage = .walk)
    (hw : c.walks = ⟨a, some node, depth⟩ :: rest)
    (hcall : m.program.Calls m.store a.frame node n callee receiver args) :
    m.CallsAlike c a.frame node n callee receiver args := by
  have hprogram : (m.beginning c).program = m.program := program_step _ _
  refine ⟨fun fuel => m.call_eq_moves fuel callee receiver args, fun moves => ?_, ?_⟩
  · have hin := m.chain?_addChain c
    have hout := m.chain?_addChain (.ofCall callee receiver args)
    have hbegin := beside_beginning hs hw hcall
    have hfit : ∀ d, (m.beginning (.ofCall callee receiver args)).chain? m.nextChain = some d →
        d.Fits (m.beginning (.ofCall callee receiver args)).program := by
      rw [beginning, program_step]
      refine fits_step (fun d hd => ?_) _
      rw [hout] at hd
      cases hd
      exact Chain.fits_of_walks rfl
    rcases hbegin.moves (exists_chain?_step ⟨c, hin⟩ _) hfit (hprogram ▸ hlimit) moves with
      halike | ⟨done, todo, outcome, rfl, hover⟩
    · exact .inl halike
    · refine .inr ⟨done, todo, outcome, rfl, hover, fun o ho => ?_⟩
      obtain ⟨e, he⟩ := exists_chain?_moves (exists_chain?_step ⟨c, hin⟩ (.run m.nextChain)) done
      obtain ⟨e', he', ht⟩ := hover.chains _ e he
      have hsettled : e'.Settled outcome := by
        cases ht with
        | related ht => exact ht.settled
        | equal hne => exact absurd rfl hne
      obtain ⟨d, hd, hsettled⟩ := settled_moves ⟨e', he', hsettled⟩ todo
      rw [List.foldl_append, hd] at ho
      exact hsettled.of_outcome? ho
  · rintro moves m' d vs rfl hd hwalks hstage
    refine step_returned ?_ hd (hwalks.trans hw) hstage
    rw [program_moves, hprogram]
    exact hcall.node

/-- A call of a method, whose receiver is the first field of a global. -/
def methodCall : Graph where
  globals := 2
  nodes := #[
    { kind := .funcDecl,
      payload := some (.definition
        { name := "add", frameSize := 3, receiver := some 1, params := [2], results := 1,
          entry := some ⟨1⟩ }) },
    { kind := .binary .add, children := [⟨2⟩, ⟨3⟩], slot := some 0 },
    { kind := .ident, slot := some 1 },
    { kind := .ident, slot := some 2 },
    { kind := .selector, children := [⟨5⟩, ⟨6⟩], payload := some (.func ⟨0⟩) },
    { kind := .ident, slot := some 0 },
    { kind := .ident, payload := some (.indices [0]) },
    { kind := .basicLit, payload := some (.literal (.int 5)) },
    { kind := .call, children := [⟨4⟩, ⟨7⟩], slot := some 1 }]

/-- A machine whose first global is a struct. -/
def withStruct (p : Program) : Machine :=
  (ofProgram p true).mapStore fun s =>
    (s.newBlock #[.int 2]).2.setSlot globalFrame 0 (.struct ⟨0⟩)

theorem calls_alike_method : ∃ p, Program.load methodCall .empty {} = .ok p ∧
    p.Calls (withStruct p).store globalFrame ⟨8⟩ methodCall.nodes[8] (.func ⟨0⟩ none)
      (some (.int 2)) [.int 5] ∧
    (withStruct p).CallsAlike (.atNode ⟨8⟩) globalFrame ⟨8⟩ methodCall.nodes[8] (.func ⟨0⟩ none)
      (some (.int 2)) [.int 5] ∧
    ((withStruct p).call 40 (.func ⟨0⟩ none) (some (.int 2)) [.int 5]).1 =
      some (.ok [.int 7]) := by
  refine ⟨_, rfl, ?_, ?_, rfl⟩
  · exact ⟨rfl, rfl, rfl, ⟨⟨4⟩, some (⟨5⟩, [0]), rfl, rfl, rfl, rfl⟩, rfl⟩
  · refine @calls_alike _ (.atNode ⟨8⟩) ⟨globalFrame, ⟨8⟩, some ⟨8⟩, 0⟩ _ 0 [] _ _ _ _
      rfl rfl rfl ?_
    exact ⟨rfl, rfl, rfl, ⟨⟨4⟩, some (⟨5⟩, [0]), rfl, rfl, rfl, rfl⟩, rfl⟩

end Machine

end Flowgraph
