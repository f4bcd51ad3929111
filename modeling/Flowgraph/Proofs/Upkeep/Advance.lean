import Mathlib.Tactic.Common
import Flowgraph.Proofs.Activation
import Flowgraph.Proofs.Stages
import Flowgraph.Proofs.Upkeep.Places

/-!
# What chains uphold by themselves

A step of a chain by itself is made of the operation of a node and of what surrounds it: frames
are added for calls, slots are overwritten, lines are printed. A property of stores that survives
each of these survives the step. An operation on a channel is only prepared by such a step, except
for closing one.
-/

namespace Flowgraph

variable {p : Program} {I : Store → Prop}

/-- A property of stores that survives what chains do by themselves, unless they change
dictionaries, print or close a channel. -/
structure Durable (I : Store → Prop) : Prop extends Steady I fun _ => True where
  setSlot : ∀ s f i v, I s → I (s.setSlot f i v)
  withFrame : ∀ s slots parent, I s → I (s.withFrame slots parent)

/-- A property of stores that survives everything that chains do by themselves, unless they close
a channel. -/
structure Robust (I : Store → Prop) : Prop extends Durable I, Stable I fun _ => True

/-- Channels may be closed. -/
def Closable (I : Store → Prop) : Prop :=
  ∀ s ch, I s → I (s.updateChannel ch fun c => { c with closed := true })

/-- No operation on a channel is under way: at most, one is about to begin. -/
def Stage.Fresh : Stage → Prop
  | .send _ _ phase => phase = .check
  | .receive _ _ phase => phase = .attempt
  | _ => True

lemma Chain.fresh_stageAfter (depth : Nat) (pending : Pending) :
    (stageAfter depth pending).Fresh := by
  cases pending with
  | send ch v => exact rfl
  | receive ch purpose => exact rfl
  | _ => exact trivial

namespace Program

/-! ### Operations -/

lemma keeps_activate (R : Durable I) (decl : NodeId) (parent : FrameId) (receiver : Option Value)
    (args : List Value) :
    Op.Keeps I (fun _ => True) (p.activate decl parent receiver args) fun _ => True := by
  intro s hs
  have h := p.activates decl parent receiver args s
  cases hr : p.activate decl parent receiver args s with
  | ok callee s' =>
    rw [hr] at h
    obtain ⟨d, -, ⟨slots, -, rfl⟩, -⟩ := h
    exact ⟨R.withFrame s slots parent hs, trivial⟩
  | error e s' =>
    rw [hr] at h
    rcases h with ⟨rfl, -⟩ | ⟨d, -, ⟨slots, -, rfl⟩, -⟩
    · exact ⟨hs, trivial⟩
    · exact ⟨R.withFrame s slots parent hs, trivial⟩

lemma keeps_bindValues (R : Durable I) (callee : Value) (receiver : Option Value)
    (args : List Value) :
    Op.Keeps I (fun _ => True) (p.bindValues callee receiver args) fun _ => True := by
  cases callee with
  | func decl env => exact keeps_activate R decl _ receiver args
  | native name => exact .pure trivial
  | _ => exact .throw trivial

lemma keeps_bindCall (R : Durable I) (f : FrameId) (id : NodeId) (op : String) :
    Op.Keeps I (fun _ => True) (p.bindCall f id op) fun _ => True := by
  rw [bindCall_eq]
  refine .bind (.look (Look.gives_any _)) fun binding _ => ?_
  cases binding with
  | declared decl parent receiver args => exact keeps_activate R decl parent receiver args
  | native name args => exact .pure trivial

variable {f : FrameId} {id : NodeId} {n : Node}

/-- An operation that does nothing to dictionaries, unless it creates an empty one, is under
control. -/
lemma regime_of_durable (R : Durable I) (hn : p.node id = .ok n)
    (hmap : n.kind = .make → ∀ s, I s → I (s.newDict {}).2) (hdict : n.kind ≠ .mapLit)
    (hentry : n.kind ≠ .assignMap)
    (hprint : n.kind = .println → ∀ s line, I s → I (s.writeLine line))
    (hclose : n.kind = .close → Closable I) :
    Regime p f id n I (fun _ => True) (fun _ => True) :=
  regime_of_steady (fun s g i v hs _ => R.setSlot s g i v hs) hn R.toSteady hmap
    (fun hk => absurd hk hdict) (fun hk => absurd hk hentry) hprint hclose

lemma regime_of_robust (R : Robust I) (hn : p.node id = .ok n)
    (hclose : n.kind = .close → Closable I) : Regime p f id n I (fun _ => True) (fun _ => True) :=
  regime_of_setSlot (fun s g i v hs _ => R.setSlot s g i v hs) hn R.toStable hclose

/-- The operation of a node keeps what survives new frames, if it is under control. -/
lemma keeps_perform_of_regime (R : Durable I)
    (hregime : ∀ n, p.node id = .ok n → Regime p f id n I (fun _ => True) fun _ => True)
    (hset : ∀ n, p.node id = .ok n → n.kind.setsElements = true → Settable I fun _ => True) :
    Op.Keeps I (fun _ => True) (p.perform f id) fun _ => True := by
  refine .bind (.lift (ends_any _)) fun n hn => ?_
  by_cases hcall : n.kind = .call
  · rw [hcall]
    exact .bind (keeps_bindCall R f id "call") fun _ _ => .pure trivial
  · by_cases hspawn : n.kind = .spawn
    · rw [hspawn]
      exact .bind (keeps_bindCall R f id "go") fun _ _ => .pure trivial
    · exact ((hregime n hn).keeps_operation hcall hspawn (hset n hn)).mono fun _ _ => trivial

lemma keeps_perform (R : Robust I)
    (hclose : ∀ n, p.node id = .ok n → n.kind = .close → Closable I)
    (hset : ∀ n, p.node id = .ok n → n.kind.setsElements = true → Settable I fun _ => True) :
    Op.Keeps I (fun _ => True) (p.perform f id) fun _ => True :=
  keeps_perform_of_regime R.toDurable (fun n hn => regime_of_robust R hn (hclose n hn)) hset

lemma keeps_storeResults (R : Durable I) (f : FrameId) (id : NodeId) (vs : List Value) :
    Op.Keeps I (fun _ => True) (p.storeResults f id vs) fun _ => True := by
  refine .bind (.lift (ends_any _)) fun n _ => ?_
  cases n.slot with
  | none => exact .pure trivial
  | some slot => exact keeps_setSlots (fun s i v _ _ hs => R.setSlot s f i v hs) _

end Program

namespace Chain

/-! ### Steps of a chain by itself -/

variable {c : Chain}

lemma keeps_walk (R : Robust I) (hset : Settable I fun _ => True)
    (hclose : ∀ w, c.walks.head? = some w → ¬w.At p .close) :
    Op.Keeps I (fun _ => True) (c.walk p) fun d => d.stage.Fresh := by
  simp only [walk]
  split
  case h_1 => exact .pure trivial
  case h_2 w rest hw =>
    split
    case h_1 => exact .bind (.look (Look.gives_any _)) fun vs _ => .pure trivial
    case h_2 id hid =>
      refine .bind (Program.keeps_perform R (fun n hn hk => ?_) fun _ _ _ => hset) fun pending _ =>
        .pure (fresh_stageAfter _ pending)
      exact absurd ⟨id, n, hid, hn, hk⟩ (hclose w (by rw [hw]; rfl))

lemma keeps_follow : Op.Keeps I (fun _ => True) (c.follow p) fun d => d.stage.Fresh := by
  simp only [follow]
  split
  case h_1 => exact .bind (.look (Look.gives_any _)) fun next _ => .pure trivial
  case h_2 => exact .pure trivial

lemma keeps_start (hprint : ∀ s line, I s → I (s.writeLine line)) (depth : Nat)
    (callee : Callee) :
    Op.Keeps I (fun _ => True) (c.start p depth callee) fun d => d.stage.Fresh := by
  cases callee with
  | declared a =>
    simp only [start]
    split
    · exact .ite (fun _ => .throw trivial) fun _ => .pure trivial
    · exact .pure trivial
  | native name args =>
    simp only [start]
    split
    case h_1 symbol _ =>
      refine .get fun s _ => ?_
      cases symbol.run p.config s args with
      | results vs => exact .pure trivial
      | print line vs =>
        exact .bind (.modify fun t ht => hprint t line ht) fun _ _ => .pure trivial
      | stop e => exact .throw trivial
      | call g vs => exact .pure trivial
    case h_2 => exact .throw trivial

lemma keeps_deliver (R : Durable I) (vs : List Value) :
    Op.Keeps I (fun _ => True) (c.deliver p vs) fun d => d.stage.Fresh := by
  simp only [deliver]
  split
  case h_1 a id depth rest hw =>
    exact .bind (Program.keeps_storeResults R a.frame id vs) fun _ _ => .pure trivial
  case h_2 => exact .pure trivial

lemma keeps_received (R : Durable I) (hfit : c.Fits p) {purpose : Purpose} {v : Option Value}
    (hs : c.stage = .received purpose v) :
    Op.Keeps I (fun _ => True) (c.received p purpose v) fun d => d.stage.Fresh := by
  simp only [received]
  split
  case h_1 a id depth rest hw =>
    obtain ⟨id', n, hid, hn, hk⟩ := hfit.stage purpose.kind _ (by rw [hs]; rfl) (by rw [hw]; rfl)
    cases hid
    have hne : ∀ {k : Kind}, purpose.kind ≠ k → n.kind ≠ k := fun h => hk ▸ h
    have hregime : Regime p a.frame id n I (fun _ => True) (fun _ => True) := by
      refine Program.regime_of_durable R hn (fun h => absurd h (hne ?_)) (hne ?_) (hne ?_)
        (fun h => absurd h (hne ?_)) (fun h => absurd h (hne ?_)) <;>
        cases purpose <;> exact Kind.noConfusion
    cases purpose with
    | result =>
      refine .bind (P := fun _ => True) ?_ fun _ _ => .pure trivial
      exact hregime.keeps_storeReceived (by rw [hk]; rfl) fun _ _ => trivial
    | visit next =>
      refine .bind (P := fun _ => True) ?_ fun _ _ => .pure trivial
      exact hregime.keeps_visitReceived hk trivial fun _ _ => trivial
  case h_2 => exact .pure trivial

/-- A step of a chain by itself keeps what is robust, unless it closes a channel, and no operation
on a channel is under way after it. -/
theorem keeps_advance (R : Robust I) (hset : Settable I fun _ => True) (hfit : c.Fits p)
    {step : Op Chain} (hs : c.advance p = some step)
    (hclose : c.stage = .walk → ∀ w, c.walks.head? = some w → ¬w.At p .close) :
    Op.Keeps I (fun _ => True) step fun d => d.stage.Fresh := by
  simp only [advance] at hs
  split at hs
  case h_1 hstage => cases hs; exact keeps_walk R hset (hclose hstage)
  case h_2 => cases hs; exact keeps_follow
  case h_3 callee receiver args _ =>
    cases hs
    exact .bind (Program.keeps_bindValues R.toDurable callee receiver args) fun _ _ => .pure trivial
  case h_4 => cases hs; exact keeps_start R.writeLine _ _
  case h_5 => cases hs; exact keeps_deliver R.toDurable _
  case h_6 hstage => cases hs; exact keeps_received R.toDurable hfit hstage
  case h_7 => cases hs; exact .throw trivial
  case h_8 => cases hs

end Chain

end Flowgraph
