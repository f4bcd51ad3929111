import Mathlib.Tactic.Common
import Flowgraph.Proofs.Stages
import Flowgraph.Proofs.Writes.Spared

/-!
# Where chains write

A step of a chain changes a slot of a frame that is there only where the operation of its node
may write, or where a node that called takes results. A call that begins adds a frame and leaves
all others alone.
-/

namespace Flowgraph

variable {p : Program} {s t : Store} {A : FrameId → Nat → Prop}

namespace Store

/-- Of the frames that are there, only slots at some places change. -/
structure Only (A : FrameId → Nat → Prop) (s s' : Store) : Prop where
  size : s.frames.size ≤ s'.frames.size
  slot : ∀ g i, g.index < s.frames.size → ¬A g i → s'.slot? g i = s.slot? g i

lemma Only.refl (A : FrameId → Nat → Prop) (s : Store) : Only A s s :=
  ⟨Nat.le_refl _, fun _ _ _ _ => rfl⟩

lemma Only.mono {B : FrameId → Nat → Prop} (h : Only A s t) (hA : ∀ g i, A g i → B g i) :
    Only B s t :=
  ⟨h.size, fun g i hg hB => h.slot g i hg fun ha => hB (hA g i ha)⟩

lemma Spares.only (h : Spares A s t) : Only A s t :=
  ⟨Nat.le_of_eq h.size.symm, fun g i _ hA => h.slot g i hA⟩

lemma only_withFrame (A : FrameId → Nat → Prop) (s : Store) (slots : Array Value)
    (parent : FrameId) : Only A s (s.withFrame slots parent) := by
  constructor
  · rw [withFrame, Array.size_push]
    exact Nat.le_succ _
  · intro g i hg _
    have hne : g ≠ s.nextFrame := by
      rintro rfl
      exact Nat.lt_irrefl _ hg
    rw [slot?, Store.slots, frame_withFrame, if_neg hne]
    rfl

end Store

/-- The store that a computation leaves behind, however it ends. -/
def Op.after {α : Type} (x : Op α) (s : Store) : Store :=
  match x s with
  | .ok _ s' => s'
  | .error _ s' => s'

namespace Op

variable {α β : Type}

lemma Keeps.after {I : Store → Prop} {E : Stop → Prop} {P : α → Prop} {x : Op α}
    (h : Keeps I E x P) (hs : I s) : I (x.after s) := by
  have hx := h s hs
  rw [Op.after]
  cases hr : x s with
  | ok a s' =>
    rw [hr] at hx
    exact hx.1
  | error e s' =>
    rw [hr] at hx
    exact hx.1

/-- What only uses a result leaves the store alone. -/
lemma after_bind_pure (x : Op α) (f : α → β) :
    (x >>= fun a => pure (f a)).after s = x.after s := by
  rw [after, after, bind_apply]
  cases x s <;> rfl

lemma after_look_bind (look : Look α) (f : α → Op β) (hA : ∀ a, look s = .ok a →
    Store.Only A s ((f a).after s)) : Store.Only A s ((liftM look >>= f : Op β).after s) := by
  rw [after, look_bind_apply]
  cases hl : look s with
  | ok a => exact hA a hl
  | error e => exact .refl A s

end Op

namespace Program

lemma only_activate (A : FrameId → Nat → Prop) (decl : NodeId) (parent : FrameId)
    (receiver : Option Value) (args : List Value) :
    Store.Only A s ((p.activate decl parent receiver args).after s) := by
  have h := p.activates decl parent receiver args s
  rw [Op.after]
  cases hr : p.activate decl parent receiver args s with
  | ok callee s' =>
    rw [hr] at h
    obtain ⟨d, -, ⟨slots, -, rfl⟩, -⟩ := h
    exact Store.only_withFrame A s slots parent
  | error e s' =>
    rw [hr] at h
    rcases h with ⟨rfl, -⟩ | ⟨d, -, ⟨slots, -, rfl⟩, -⟩
    · exact .refl A _
    · exact Store.only_withFrame A s slots parent

lemma only_complete (A : FrameId → Nat → Prop) (binding : Binding) :
    Store.Only A s ((p.complete binding).after s) := by
  cases binding with
  | declared decl parent receiver args => exact only_activate A decl parent receiver args
  | native name args => exact .refl A s

/-- Binding a call changes no slot that is there. -/
lemma only_bindCall (A : FrameId → Nat → Prop) (f : FrameId) (id : NodeId) (op : String) :
    Store.Only A s ((p.bindCall f id op).after s) := by
  rw [bindCall_eq]
  exact Op.after_look_bind _ _ fun binding _ => only_complete A binding

lemma only_bindValues (A : FrameId → Nat → Prop) (callee : Value) (receiver : Option Value)
    (args : List Value) : Store.Only A s ((p.bindValues callee receiver args).after s) := by
  cases callee with
  | func decl env => exact only_activate A decl _ receiver args
  | _ => exact .refl A s

/-- The results of a call go to consecutive slots, as many as the node is wide. -/
lemma only_storeResults (f : FrameId) (id : NodeId) (vs : List Value) :
    Store.Only (fun g i => ∃ n slot, p.node id = .ok n ∧ n.slot = some slot ∧ g = f ∧
      slot ≤ i ∧ i < slot + min n.width vs.length) s ((p.storeResults f id vs).after s) := by
  rw [Op.after]
  cases hn : p.node id with
  | error e =>
    rw [storeResults, Op.except_bind_apply, hn]
    exact .refl _ s
  | ok n =>
    cases hslot : n.slot with
    | none =>
      rw [storeResults_none hn hslot]
      exact .refl _ s
    | some slot =>
      rw [storeResults_some hn hslot]
      refine ((keeps_setSlots (fun t i v hle hlt ht => ?_) _).after (Store.Spares.refl _ s)).only
      rw [List.length_take] at hlt
      exact ht.setSlot ⟨n, slot, rfl, hslot, rfl, hle, hlt⟩ v

end Program

namespace Chain

/-- Where a chain may write with its next step. -/
inductive Writes (p : Program) (s : Store) (c : Chain) (g : FrameId) (i : Nat) : Prop
  /-- The operation of a node, or what becomes of a value that it received. -/
  | operation {a : Activation} {node : NodeId} {depth : Nat} {rest : List Walk} {n : Node}
    (hw : c.walks = ⟨a, some node, depth⟩ :: rest) (hn : p.node node = .ok n)
    (hc : n.kind ≠ .call) (hs : c.stage = .walk ∨ ∃ purpose v, c.stage = .received purpose v)
    (hp : p.Place s a.frame n g i)
  /-- The results of a call, as many as the node that called is wide. -/
  | results {a : Activation} {node : NodeId} {depth : Nat} {rest : List Walk} {n : Node}
    {slot : Nat} {vs : List Value} (hw : c.walks = ⟨a, some node, depth⟩ :: rest)
    (hn : p.node node = .ok n) (hs : c.stage = .deliver vs) (hslot : n.slot = some slot)
    (hg : g = a.frame) (hi : slot ≤ i ∧ i < slot + min n.width vs.length)

variable {c : Chain}

lemma only_walk (hs : c.stage = .walk) : Store.Only (c.Writes p s) s ((c.walk p).after s) := by
  simp only [Chain.walk]
  split
  case h_1 => exact .refl _ s
  case h_2 w rest hw =>
    obtain ⟨a, node, depth⟩ := w
    cases node with
    | none => exact Op.after_look_bind _ _ fun vs _ => .refl _ s
    | some id =>
      dsimp only
      rw [Op.after_bind_pure, Program.perform, Op.after, Op.except_bind_apply]
      cases hn : p.node id with
      | error e => exact .refl _ s
      | ok n =>
        dsimp only
        change Store.Only _ s ((p.operation a.frame id n.kind).after s)
        by_cases hcall : n.kind = .call
        · rw [hcall, Program.operation, Op.after_bind_pure]
          exact Program.only_bindCall _ _ _ _
        · by_cases hspawn : n.kind = .spawn
          · rw [hspawn, Program.operation, Op.after_bind_pure]
            exact Program.only_bindCall _ _ _ _
          · have hkeeps := (Program.regime_spares (s := s) (f := a.frame) hn).keeps_operation
              hcall hspawn fun _ => Program.settable_spares _ s
            refine ((hkeeps.after (.refl _ s)).mono fun g i hp => ?_).only
            exact .operation hw hn hcall (.inl hs) hp

lemma only_follow : Store.Only A s ((c.follow p).after s) := by
  simp only [Chain.follow]
  split
  case h_1 => exact Op.after_look_bind _ _ fun next _ => .refl _ s
  case h_2 => exact .refl _ s

lemma only_start (depth : Nat) (callee : Callee) :
    Store.Only A s ((c.start p depth callee).after s) := by
  cases callee with
  | declared a =>
    simp only [Chain.start]
    split
    · split_ifs <;> exact .refl A s
    · exact .refl A s
  | native name args =>
    simp only [Chain.start]
    split
    case h_1 symbol hsymbol =>
      change Store.Only A s ((c.reply (symbol.run p.config s args)).after s)
      cases symbol.run p.config s args with
      | print line vs => exact ⟨Nat.le_refl _, fun _ _ _ _ => rfl⟩
      | _ => exact .refl A s
    case h_2 => exact .refl A s

lemma only_deliver {vs : List Value} (hs : c.stage = .deliver vs) :
    Store.Only (c.Writes p s) s ((c.deliver p vs).after s) := by
  simp only [Chain.deliver]
  split
  case h_1 a id depth rest hw =>
    rw [Op.after_bind_pure]
    refine (Program.only_storeResults a.frame id vs).mono fun g i hp => ?_
    obtain ⟨n, slot, hn, hslot, rfl, hi⟩ := hp
    exact .results hw hn hs hslot rfl hi
  case h_2 => exact .refl _ s

lemma only_received (hfit : c.Fits p) {purpose : Purpose} {v : Option Value}
    (hs : c.stage = .received purpose v) :
    Store.Only (c.Writes p s) s ((c.received p purpose v).after s) := by
  simp only [Chain.received]
  split
  case h_1 a id depth rest hw =>
    obtain ⟨id', n, hid, hn, hk⟩ := hfit.stage purpose.kind _ (by rw [hs]; rfl) (by rw [hw]; rfl)
    cases hid
    have hcall : n.kind ≠ .call := by
      rw [hk]
      cases purpose <;> exact Kind.noConfusion
    have hregime := Program.regime_spares (s := s) (f := a.frame) hn
    have hwrites : ∀ {t : Store}, Store.Spares (p.Place s a.frame n) s t →
        Store.Only (c.Writes p s) s t := by
      intro t ht
      exact (ht.mono fun g i hp => .operation hw hn hcall (.inr ⟨_, _, hs⟩) hp).only
    cases purpose with
    | result =>
      dsimp only
      rw [Op.after_bind_pure]
      exact hwrites ((hregime.keeps_storeReceived (by rw [hk]; rfl)
        fun _ _ => trivial).after (.refl _ s))
    | visit next =>
      dsimp only
      rw [Op.after_bind_pure]
      exact hwrites ((hregime.keeps_visitReceived hk trivial fun _ _ => trivial).after (.refl _ s))
  case h_2 => exact .refl _ s

/-- A step of a chain by itself changes slots that are there only where the chain may write. -/
theorem only_advance (hfit : c.Fits p) {step : Op Chain} (hs : c.advance p = some step) :
    Store.Only (c.Writes p s) s (step.after s) := by
  simp only [Chain.advance] at hs
  split at hs
  case h_1 hstage => cases hs; exact only_walk hstage
  case h_2 => cases hs; exact only_follow
  case h_3 callee receiver args hstage =>
    cases hs
    rw [Op.after_bind_pure]
    exact Program.only_bindValues _ callee receiver args
  case h_4 => cases hs; exact only_start _ _
  case h_5 hstage => cases hs; exact only_deliver hstage
  case h_6 hstage => cases hs; exact only_received hfit hstage
  case h_7 => cases hs; exact .refl _ s
  case h_8 => cases hs

end Chain

namespace Machine

variable {m : Machine}

/-- Where a move may write. -/
def Writes (m : Machine) (mv : Move) (g : FrameId) (i : Nat) : Prop :=
  ∃ id c, mv = .run id ∧ m.chain? id = some c ∧ c.Writes m.program m.store g i

/-- A move changes slots that are there only where it may write. -/
theorem only_step (hfit : m.Fits) (mv : Move) :
    Store.Only (m.Writes mv) m.store (m.step mv).store := by
  rcases m.step_cases mv with h | ⟨id, c, step, rfl, hc, ha, he⟩
  · rcases h.store with hs | ⟨ch, v, -, hs⟩ | ⟨ch, hs⟩
    all_goals
      rw [hs]
      exact ⟨Nat.le_refl _, fun _ _ _ _ => rfl⟩
  · have honly := Chain.only_advance (s := m.store) (hfit id c hc) ha
    have hstore : (m.step (.run id)).store = step.after m.store := by
      rw [he, stepChain, Op.after]
      cases step m.store <;> rfl
    rw [hstore]
    exact ⟨honly.size, fun g i hg hA => honly.slot g i hg fun hw => hA ⟨id, c, rfl, hc, hw⟩⟩

end Machine

end Flowgraph
