import Mathlib.Tactic.Common
import Flowgraph.Proofs.Abort.Raises
import Flowgraph.Proofs.Stops.Operation

/-!
# How chains stop

A chain that is at known nodes and calls known functions stops as its program is charted. Which
functions it calls depends on the values that it meets, so here the store matters.
-/

namespace Flowgraph

variable {p : Program} {N : NodeId → Prop} {T : TypeId → Prop} {E : Stop → Prop}

/-- If a value is a function, it is a known one. -/
def Value.Names (N : NodeId → Prop) (v : Value) : Prop := ∀ decl env, v = .func decl env → N decl

/-- Every function that a node denotes in a store is a known one. -/
def Program.Names (p : Program) (N : NodeId → Prop) (s : Store) : Prop :=
  ∀ f id v, p.value f id s = .ok v → v.Names N

/-- The function that a call is bound to is a known one. -/
def Program.Binding.Names (N : NodeId → Prop) : Program.Binding → Prop
  | .declared decl _ _ _ => N decl
  | .native _ _ => True

/-- What is so in every store is so in every store of a kind. -/
lemma Look.Stops.among {α : Type} {look : Look α} (h : Look.Stops E look) (I : Store → Prop) :
    Look.Gives I E look fun _ => True := fun s _ => h s trivial

/-- How an operation stops in one store. -/
lemma Op.Stops.error {α : Type} {x : Op α} {s s' : Store} {e : Stop} (h : Op.Stops E x)
    (hx : x s = .error e s') : E e := by
  have hs := h s trivial
  rw [hx] at hs
  exact hs.2

namespace Program.Charted

variable (C : p.Charted N T E) {f : FrameId} {id : NodeId} {s s' : Store} {e : Stop}

include C

/-! ### Calls -/

lemma stops_activate {decl : NodeId} (h : N decl) (parent : FrameId) (receiver : Option Value)
    (args : List Value) : Op.Stops E (p.activate decl parent receiver args) := by
  have hdefinition : Ends E (fun _ => True) (p.definition decl) := by
    refine (C.node decl h).bind fun n _ => ?_
    cases n.definition? with
    | some d => exact trivial
    | none => exact C.fault _
  refine .bind (.lift hdefinition) fun d _ => .ite (fun _ => .throw_bind (C.fault _)) fun _ => ?_
  have hframe : Op.Stops E (Op.newFrame d.frameSize (some parent)) :=
    .bind (.lift (C.ends_checkSize _ _)) fun _ _ => .create fun _ _ => ⟨trivial, trivial⟩
  refine .bind hframe fun frame _ => ?_
  dsimp only
  split
  · refine .bind (C.stops_setSlot frame _ _ _) fun _ _ => ?_
    refine .bind (.forM fun a _ => ?_) fun _ _ => .pure trivial
    exact C.stops_setSlot frame a.1 a.2 _
  · refine .bind (.forM fun a _ => ?_) fun _ _ => .pure trivial
    exact C.stops_setSlot frame a.1 a.2 _

lemma stops_bindValues {callee : Value} (h : callee.Names N) (receiver : Option Value)
    (args : List Value) : Op.Stops E (p.bindValues callee receiver args) := by
  cases callee with
  | func decl env => exact C.stops_activate (h decl env rfl) _ receiver args
  | native name => exact .pure trivial
  | _ => exact .throw (C.fault _)

lemma ends_receiverPart (h : N id) :
    Ends E (fun part => ∀ c path, part = some (c, path) → N c) (p.receiverPart id) := by
  refine (C.node id h).bind fun n hn => ?_
  split_ifs
  · refine (C.ends_child h 0).bind fun c hc => ?_
    split
    case h_1 a ha =>
      refine (C.node a (hn.children a (List.mem_of_getElem? ha))).bind fun _ _ => ?_
      intro c' path' he
      cases he
      exact hc
    case h_2 =>
      intro c' path' he
      cases he
      exact hc
  · intro c path he
    cases he

lemma stops_receiverValue {part : Option (NodeId × List Nat)}
    (h : ∀ c path, part = some (c, path) → N c) : Look.Stops E (p.receiverValue f part) := by
  cases part with
  | none => exact .pure trivial
  | some part =>
    rw [receiverValue_some]
    refine .bind (C.stops_value (h part.1 part.2 rfl)) fun v _ => ?_
    refine .bind (gives_follow steady_true C.faults _ trivial part.2) fun _ _ => ?_
    exact .pure trivial

lemma gives_callee (h : N id) : Look.Gives (p.Names N) E (p.value f id) (Value.Names N) := by
  intro s hs
  have hv := C.stops_value (f := f) h s trivial
  cases hx : p.value f id s with
  | ok v => exact hs f id v hx
  | error e =>
    rw [hx] at hv
    exact hv

lemma gives_bindingOf (h : N id) (op : String) :
    Look.Gives (p.Names N) E (p.bindingOf f id op) (Binding.Names N) := by
  have hargs : ∀ n : Node, n.Refers N T → ∀ c ∈ n.children.drop 1, N c := fun n hn c hc =>
    hn.children c (List.mem_of_mem_drop hc)
  refine .bind (.lift (C.node id h)) fun n hn => .bind (.lift (C.ends_child h 0))
    fun callee hc => ?_
  refine .bind (.lift (C.ends_receiverPart hc)) fun part hpart => ?_
  refine .bind (C.gives_callee hc) fun v hv => ?_
  split
  case h_1 decl env =>
    refine .bind ((C.stops_receiverValue hpart).among _) fun receiver _ => ?_
    refine .bind ((C.stops_allValues (hargs n hn)).among _) fun args _ => ?_
    exact .pure (hv decl env rfl)
  case h_2 name =>
    refine .bind ((C.stops_receiverValue hpart).among _) fun receiver _ => ?_
    exact .bind ((C.stops_allValues (hargs n hn)).among _) fun args _ => .pure trivial
  case h_3 =>
    refine .throw ?_
    cases v <;> exact C.fault _

lemma allows_bindCall (hs : p.Names N s) (h : N id) {op : String}
    (hx : p.bindCall f id op s = .error e s') : E e := by
  have hbinding := C.gives_bindingOf (f := f) h op s hs
  rw [bindCall_eq, Op.look_bind_apply] at hx
  cases hb : p.bindingOf f id op s with
  | error e' =>
    rw [hb] at hx hbinding
    cases hx
    exact hbinding
  | ok binding =>
    rw [hb] at hx hbinding
    cases binding with
    | declared decl parent receiver args =>
      exact (C.stops_activate hbinding parent receiver args).error hx
    | native name args => cases hx

lemma allows_perform (hs : p.Names N s) (h : N id) (hx : p.perform f id s = .error e s') :
    E e := by
  have hnode := C.node id h
  rw [perform, Op.except_bind_apply] at hx
  cases hn : p.node id with
  | error e' =>
    rw [hn] at hx hnode
    cases hx
    exact hnode
  | ok n =>
    rw [hn] at hx
    dsimp only at hx
    by_cases hcall : n.kind = .call
    · rw [hcall] at hx
      exact C.allows_bindCall hs h (Chain.of_map_error hx)
    · by_cases hspawn : n.kind = .spawn
      · rw [hspawn] at hx
        exact C.allows_bindCall hs h (Chain.of_map_error hx)
      · exact (C.stops_operation h hcall hspawn).error hx

lemma stops_storeResults (h : N id) (vs : List Value) : Op.Stops E (p.storeResults f id vs) := by
  refine .bind (.lift (C.node id h)) fun n _ => ?_
  cases n.slot with
  | none => exact .pure trivial
  | some slot => exact C.stops_setSlots slot _ _

lemma stops_results (a : Activation) : Look.Stops E (results a) := by
  refine .read fun s _ => ?_
  cases s.range? a.frame 0 a.results with
  | some vs => exact trivial
  | none => exact C.fault _

end Program.Charted

/-! ### Chains -/

/-- A chain is at known nodes, and the function that it is about to call is a known one. -/
structure Chain.Knows (N : NodeId → Prop) (c : Chain) : Prop where
  walks : ∀ w ∈ c.walks, ∀ id, w.node = some id → N id
  callee : ∀ callee receiver args, c.stage = .call callee receiver args → callee.Names N

/-- The next step of a chain stops as its program is charted, unless it is a native that stops. -/
theorem Program.Charted.allows_of_raises (C : p.Charted N T E) {c : Chain} {s s' : Store}
    {e : Stop} (hs : p.Names N s) (hc : c.Knows N)
    (hnative : ∀ depth name args symbol, c.stage = .start depth (.native name args) →
      p.natives.symbol? name = some symbol → symbol.run p.config s args = .stop e → E e)
    (h : c.Raises p s e s') : E e := by
  have htop : ∀ {w rest id}, c.walks = w :: rest → w.node = some id → N id := fun hw hid =>
    hc.walks _ (hw ▸ List.mem_cons_self) _ hid
  cases h with
  | operation hstage hw hid h => exact C.allows_perform hs (htop hw hid) h
  | @results w _ _ hstage hw hid h =>
    have hx := C.stops_results w.activation s trivial
    rwa [h] at hx
  | @branch a _ _ _ _ hstage hw h =>
    have hx := C.gives_successor (f := a.frame) (htop hw rfl) s trivial
    rwa [h] at hx
  | binding hstage h => exact (C.stops_bindValues (hc.callee _ _ _ hstage) _ _).error h
  | depth => exact C.fault _
  | native hstage hname h => exact hnative _ _ _ _ hstage hname h
  | unknown | spawning => exact C.fault _
  | copy hstage hw h => exact (C.stops_storeResults (htop hw rfl) _).error h
  | storing hstage hw h => exact (C.stops_storeReceived (htop hw rfl) _).error h
  | visiting hstage hw h => exact (C.stops_visitReceived (htop hw rfl) _ _).error h

end Flowgraph
