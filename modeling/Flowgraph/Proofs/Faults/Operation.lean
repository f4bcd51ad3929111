import Mathlib.Tactic.Common
import Flowgraph.Operation
import Flowgraph.Proofs.Faults.Intact
import Flowgraph.Proofs.Stages

/-!
# Operations that change nothing when they stop

Most operations read all that they need, compute, and make a single change at the very end: they
write their own slot, an element or an entry, print a line or close a channel. Nothing can go wrong
after that change, so an operation that stops has changed nothing that was there before. At most it
has created something that nobody knows of.
-/

namespace Flowgraph

variable {α β : Type} {I : Store → Prop} {E : Stop → Prop} {P : α → Prop}

/-! ### The judgement -/

/-- From a store with `I`, an operation comes to its result, or it stops in a store with `I`. -/
def Op.Spares (I : Store → Prop) (x : Op α) : Prop :=
  ∀ s, I s → match x s with
    | .ok _ _ => True
    | .error _ s' => I s'

namespace Op

lemma Keeps.spares {x : Op α} (h : Keeps I E x P) : Spares I x := by
  intro s hs
  have hx := h s hs
  cases hr : x s with
  | ok a s' => exact trivial
  | error e s' =>
    rw [hr] at hx
    exact hx.1

/-- What comes before the change keeps the property, and what makes the change may end with it. -/
lemma Keeps.then_spares {x : Op α} {next : α → Op β} (h : Keeps I E x P)
    (hn : ∀ a, P a → Spares I (next a)) : Spares I (x >>= next) := by
  intro s hs
  have hx := h s hs
  rw [bind_apply]
  cases hr : x s with
  | ok a s' =>
    rw [hr] at hx
    exact hn a hx.2 s' hx.1
  | error e s' =>
    rw [hr] at hx
    exact hx.1

lemma spares_look {look : Look α} {next : α → Op β} (hn : ∀ a, Spares I (next a)) :
    Spares I ((liftM look : Op α) >>= next) :=
  (Keeps.look look.gives_any).then_spares fun a _ => hn a

lemma spares_lift {x : Except Stop α} {next : α → Op β} (hn : ∀ a, Spares I (next a)) :
    Spares I ((liftM x : Op α) >>= next) :=
  (Keeps.lift (ends_any x)).then_spares fun a _ => hn a

lemma spares_throw (e : Stop) : Spares I (MonadExcept.throw e : Op α) := fun _ hs => hs

/-- A change of the store cannot stop. -/
lemma spares_modify (change : Store → Store) : Spares I (modify change : Op Unit) :=
  fun _ _ => trivial

lemma spares_get {next : Store → Op β} (hn : ∀ s, Spares I (next s)) :
    Spares I (MonadState.get >>= next) := fun s hs => hn s s hs

lemma spares_ite {c : Prop} [Decidable c] {x y : Op α} (hx : Spares I x) (hy : Spares I y) :
    Spares I (if c then x else y) := by
  split_ifs
  · exact hx
  · exact hy

lemma Spares.then_pure {x : Op α} {f : α → β} (h : Spares I x) :
    Spares I (do return f (← x)) := by
  intro s hs
  have hx := h s hs
  rw [bind_apply]
  cases hr : x s with
  | ok a s' => exact trivial
  | error e s' =>
    rw [hr] at hx
    exact hx

lemma spares_setSlot (f : FrameId) (i : Nat) (v : Value) (missing : Stop) :
    Spares I (setSlot f i v missing) :=
  spares_get fun _ => spares_ite (spares_modify _) (spares_throw _)

end Op

namespace Program

variable {p : Program} {f : FrameId} {id : NodeId} {n : Node} {s : Store}

open Op

lemma spares_setOwn (v : Value) : Spares I (p.setOwn f id v) := by
  refine spares_lift fun n => ?_
  cases n.slot with
  | none => exact spares_throw _
  | some slot => exact spares_setSlot f slot v _

/-! ### Operations that read and make one change -/

lemma spares_binary (op : BinaryOp) : Spares I (p.binary f id op) :=
  spares_look fun _ => spares_look fun _ => spares_lift fun v => spares_setOwn v

lemma spares_unary (apply : Value → Except Stop Value) : Spares I (p.unary f id apply) :=
  spares_look fun _ => spares_lift fun v => spares_setOwn v

lemma spares_lnot : Spares I (p.lnot f id) :=
  spares_look fun _ => spares_lift fun _ => spares_setOwn _

/-- Both branches of a conjunction and of a disjunction write once. -/
lemma spares_land : Spares I (p.land f id) := by
  refine spares_look fun _ => spares_lift fun _ => spares_ite ?_ (spares_setOwn _)
  exact spares_look fun _ => spares_lift fun _ => spares_setOwn _

lemma spares_lor : Spares I (p.lor f id) := by
  refine spares_look fun _ => spares_lift fun _ => spares_ite (spares_setOwn _) ?_
  exact spares_look fun _ => spares_lift fun _ => spares_setOwn _

lemma spares_assignPointer : Spares I (p.assignPointer f id) := by
  refine spares_look fun v => spares_look fun target => ?_
  cases target with
  | pointer b i => exact spares_get fun _ => spares_ite (spares_modify _) (spares_throw _)
  | _ => exact spares_throw _

lemma spares_assignMap : Spares I (p.assignMap f id) := by
  refine spares_lift fun target => spares_look fun m => spares_look fun k => ?_
  refine spares_look fun v => spares_lift fun d => ?_
  cases d with
  | some d => exact spares_modify _
  | none => exact spares_throw _

lemma spares_index : Spares I (p.index f id) := by
  refine spares_look fun _ => spares_look fun _ => spares_lift fun _ => ?_
  exact spares_look fun v => spares_setOwn v

lemma spares_indexAddress : Spares I (p.indexAddress f id) := by
  refine spares_look fun _ => spares_look fun _ => spares_lift fun _ => spares_lift fun _ => ?_
  exact spares_get fun _ => spares_lift fun _ => spares_setOwn _

lemma spares_indexPath : Spares I (p.indexPath f id) := by
  refine spares_lift fun pathNode => spares_lift fun n => ?_
  cases n.indices? with
  | none => exact spares_throw _
  | some path => exact spares_look fun _ => spares_look fun v => spares_setOwn v

lemma spares_len : Spares I (p.len f id) :=
  spares_look fun _ => spares_look fun _ => spares_setOwn _

lemma spares_close : Spares I (p.close f id) := by
  refine spares_look fun _ => spares_lift fun _ => spares_get fun _ => ?_
  exact spares_ite (spares_throw _) (spares_modify _)

lemma spares_println : Spares I (p.println f id) :=
  spares_lift fun _ => spares_look fun _ => spares_get fun _ => spares_modify _

lemma spares_caseTest : Spares I (p.caseTest f id) :=
  spares_look fun _ => spares_setOwn _

lemma spares_funcLit : Spares I (p.funcLit f id) := by
  refine spares_lift fun n => ?_
  split
  · exact spares_setOwn _
  · exact spares_throw _

/-! ### Operations that create something first -/

lemma spares_indexMap : Spares s.Intact (p.indexMap f id) := by
  refine spares_look fun m => spares_look fun k => spares_look fun v => ?_
  cases v with
  | some v => exact spares_setOwn v
  | none =>
    refine spares_lift fun n => ?_
    exact (p.graph.keeps_zero_intact n.type).then_spares fun v _ => spares_setOwn v

/-- The block of a literal is created before the literal is stored. -/
lemma spares_setSlice (elements : Array Value) :
    Spares s.Intact (do p.setOwn f id (← newSlice elements)) :=
  (keeps_newSlice_intact (E := fun _ => True) elements).then_spares fun v _ => spares_setOwn v

lemma spares_setStruct (fields : Array Value) :
    Spares s.Intact (do p.setOwn f id (← newStruct fields)) :=
  (keeps_newStruct_intact (E := fun _ => True) fields).then_spares fun v _ => spares_setOwn v

lemma spares_setMap (content : Dict) :
    Spares s.Intact (do p.setOwn f id (.map (← create fun s => s.newDict content))) :=
  (Keeps.create (E := fun _ => True) (P := fun _ => True)
    fun _ ht => ⟨ht.newDict content, trivial⟩).then_spares fun _ _ => spares_setOwn _

lemma spares_arrayLit : Spares s.Intact (p.arrayLit f id) := by
  refine spares_lift fun n => spares_look fun written => spares_lift fun shape => ?_
  split
  case h_1 elem length =>
    exact (Keeps.times _ (p.graph.keeps_zero_intact (some elem))).then_spares
      fun rest _ => spares_setSlice _
  case h_2 => exact spares_setSlice _

lemma spares_compositeLit : Spares s.Intact (p.compositeLit f id) := by
  refine spares_lift fun n => spares_look fun written => spares_lift fun shape => ?_
  split
  case h_1 fields =>
    exact (p.keeps_zeros_intact _).then_spares fun rest _ => spares_setStruct _
  case h_2 => exact spares_setStruct _

lemma spares_mapLit : Spares s.Intact (p.mapLit f id) :=
  spares_lift fun _ => spares_look fun _ => spares_setMap _

/-- Keyed elements are written into the block of the literal itself. -/
lemma keeps_setKeyed_intact {b : BlockId} (hb : s.blocks.size ≤ b.index) (c : NodeId) :
    Keeps s.Intact (fun _ => True) (p.setKeyed f b c) fun _ => True := by
  have hset : ∀ i v, Keeps s.Intact (fun _ => True) (setElement b i v) fun _ => True := by
    intro i v
    refine .bind (.look (Look.gives_any _)) fun j _ => ?_
    exact .modify fun t ht => ht.setElement hb j v
  refine .bind (.lift (ends_any _)) fun m _ => ?_
  cases m.field? with
  | none => exact .throw trivial
  | some field =>
    refine .ite (fun _ => ?_) fun _ => ?_
    · exact .bind (.look (Look.gives_any _)) fun v _ => hset _ v
    · exact .bind (.look (Look.gives_any _)) fun v _ => hset _ v

lemma spares_keyedLit : Spares s.Intact (p.keyedLit f id) := by
  refine spares_lift fun n => spares_lift fun t => ?_
  refine (p.graph.keeps_zero_intact t).then_spares fun v hv => ?_
  refine (Keeps.lift (ends_any (v.asBlock _))).then_spares fun b hb => ?_
  refine (Keeps.forM fun c _ => keeps_setKeyed_intact (hv _ b hb) c).then_spares fun _ _ => ?_
  exact spares_setOwn v

lemma spares_make : Spares s.Intact (p.make f id) := by
  refine spares_lift fun t => spares_look fun size => spares_lift fun ty => ?_
  cases ty with
  | slice elem =>
    refine spares_lift fun _ => ?_
    exact (Keeps.times _ (p.graph.keeps_zero_intact (some elem))).then_spares
      fun zeros _ => spares_setSlice _
  | chan elem => exact (keeps_newChannel_intact _).then_spares fun _ _ => spares_setOwn _
  | map key value => exact spares_setMap _
  | _ => exact spares_throw _

end Program

/-! ### All of them -/

/-- The kinds whose operation changes nothing when it stops. A call counts up to the point where it
is bound. -/
def Kind.isSparing : Kind → Bool
  | binary _ | neg | not | land | lor | inc | dec | assignPointer | assignMap | arrayLit | mapLit
  | compositeLit | keyedLit | index | indexAddress | indexPath | indexMap | make | len | caseTest
  | funcLit | println | send | close | call | spawn => true
  | _ => false

namespace Program

variable {p : Program} {f : FrameId} {id : NodeId} {n : Node} {s : Store}

open Op

lemma spares_operation (hk : n.kind.isSparing = true) :
    Spares s.Intact (p.operation f id n.kind) := by
  cases h : n.kind
  case binary op => exact (spares_binary op).then_pure
  case neg | inc | dec => exact (spares_unary _).then_pure
  case not => exact spares_lnot.then_pure
  case land => exact spares_land.then_pure
  case lor => exact spares_lor.then_pure
  case assignPointer => exact spares_assignPointer.then_pure
  case assignMap => exact spares_assignMap.then_pure
  case arrayLit => exact spares_arrayLit.then_pure
  case mapLit => exact spares_mapLit.then_pure
  case compositeLit => exact spares_compositeLit.then_pure
  case keyedLit => exact spares_keyedLit.then_pure
  case index => exact spares_index.then_pure
  case indexAddress => exact spares_indexAddress.then_pure
  case indexPath => exact spares_indexPath.then_pure
  case indexMap => exact spares_indexMap.then_pure
  case make => exact spares_make.then_pure
  case send => exact (Keeps.look (Look.gives_any _)).spares
  case close => exact spares_close.then_pure
  case len => exact spares_len.then_pure
  case println => exact spares_println.then_pure
  case caseTest => exact spares_caseTest.then_pure
  case call | spawn => exact (p.keeps_bindCall_intact f id _).spares.then_pure
  case funcLit => exact spares_funcLit.then_pure
  all_goals
    rw [h] at hk
    cases hk

/-- When the operation of such a node stops, all that was there is as before. -/
theorem intact_of_perform_error {e : Stop} {s' : Store} (hn : p.node id = .ok n)
    (hk : n.kind.isSparing = true) (h : p.perform f id s = .error e s') : s.Intact s' := by
  have hspares : Spares s.Intact (p.perform f id) := by
    rw [perform, hn]
    exact spares_operation hk
  have hs := hspares s (.refl s)
  rwa [h] at hs

end Program

end Flowgraph
