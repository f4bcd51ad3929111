import Mathlib.Tactic.Common
import Flowgraph.Proofs.Upkeep.Basic

/-!
# Upkeep by operations that compute and assign

One lemma for each operation, by the structure of its definition.
-/

namespace Flowgraph

namespace Regime

variable {I : Store → Prop} {V : Value → Prop} {E : Stop → Prop}
variable {p : Program} {f : FrameId} {id : NodeId} {n : Node}

/-! ### Arithmetic -/

section Arithmetic

variable (R : Regime p f id n I V E)

include R

/-- An operand of an operation whose operands are some of its children. -/
lemma gives_pick {i : Nat} {places : List Nat} (ht : p.touched id n = n.pick places)
    (hi : i ∈ places) : Look.Gives I E (p.operand f id i) V :=
  R.gives_operand fun _ hc => ht ▸ Node.mem_pick hi hc

lemma gives_bool {i : Nat} {places : List Nat} (ht : p.touched id n = n.pick places)
    (hi : i ∈ places) (op : String) {α : Type} {next : Bool → Op α} {P : α → Prop}
    (hn : ∀ b, Op.Keeps I E (next b) P) :
    Op.Keeps I E
      (do let b ← (← (p.operand f id i : Look Value)).asBool op; next b) P := by
  refine .bind (.look (R.gives_pick ht hi)) fun v _ => ?_
  exact .bind (.lift (ends_asBool R.faults op v)) fun b _ => hn b

lemma keeps_binary {op : BinaryOp} (hk : n.kind = .binary op) :
    Op.Keeps I E (p.binary f id op) fun _ => True := by
  have ht : p.touched id n = n.pick [0, 1] := by simp only [Program.touched, hk]
  refine .bind (.look (R.gives_pick ht (by simp))) fun left _ => ?_
  refine .bind (.look (R.gives_pick ht (by simp))) fun right _ => ?_
  refine .bind (.lift (ends_evaluate R.faults op left right)) fun v hv => ?_
  exact R.writeOwn (by rw [hk]; rfl) v (R.plain v hv)

lemma keeps_unary {apply : Value → Except Stop Value} (hs : n.kind.isStructural = false)
    (ht : p.touched id n = n.pick [0]) (ha : ∀ v, Ends E V (apply v)) :
    Op.Keeps I E (p.unary f id apply) fun _ => True := by
  refine .bind (.look (R.gives_pick ht (by simp))) fun v _ => ?_
  exact .bind (.lift (ha v)) fun w hw => R.writeOwn hs w hw

lemma ends_negate (v : Value) : Ends E V v.negate := by
  cases v <;>
    first | exact R.plain _ rfl | exact R.tolerant _ rfl

lemma ends_increment (v : Value) : Ends E V v.increment := by
  cases v <;>
    first | exact R.plain _ rfl | exact R.tolerant _ rfl

lemma ends_decrement (v : Value) : Ends E V v.decrement := by
  cases v <;>
    first | exact R.plain _ rfl | exact R.tolerant _ rfl

lemma keeps_setBool (hs : n.kind.isStructural = false) (b : Bool) :
    Op.Keeps I E (p.setOwn f id (.bool b)) fun _ => True :=
  R.writeOwn hs _ (R.plain _ rfl)

lemma keeps_lnot (hk : n.kind = .not) : Op.Keeps I E (p.lnot f id) fun _ => True := by
  have ht : p.touched id n = n.pick [0] := by simp only [Program.touched, hk]
  exact R.gives_bool ht (by simp) "!" fun b => R.keeps_setBool (by rw [hk]; rfl) !b

lemma keeps_land (hk : n.kind = .land) : Op.Keeps I E (p.land f id) fun _ => True := by
  have ht : p.touched id n = n.pick [0, 1] := by simp only [Program.touched, hk]
  have hs : n.kind.isStructural = false := by rw [hk]; rfl
  refine R.gives_bool ht (by simp) "&&" fun b => .ite (fun _ => ?_) fun _ => ?_
  · exact R.gives_bool ht (by simp) "&&" fun b => R.keeps_setBool hs b
  · exact R.keeps_setBool hs false

lemma keeps_lor (hk : n.kind = .lor) : Op.Keeps I E (p.lor f id) fun _ => True := by
  have ht : p.touched id n = n.pick [0, 1] := by simp only [Program.touched, hk]
  have hs : n.kind.isStructural = false := by rw [hk]; rfl
  refine R.gives_bool ht (by simp) "||" fun b => .ite (fun _ => ?_) fun _ => ?_
  · exact R.keeps_setBool hs true
  · exact R.gives_bool ht (by simp) "||" fun b => R.keeps_setBool hs b

end Arithmetic

/-! ### Assignment -/

section Assignment

variable (R : Regime p f id n I V E)

include R

lemma keeps_assign (hk : n.kind = .assign) : Op.Keeps I E (p.assign f id) fun _ => True := by
  have ht : p.touched id n = n.children := by simp only [Program.touched, hk]
  have hd : Program.destinations n = n.children.take (n.children.length / 2) := by
    simp only [Program.destinations, hk]
  refine R.bind_node (.ite (fun _ => .throw_bind (R.tolerant _ rfl)) fun _ => ?_)
  have hr : ∀ c ∈ n.children.drop (n.children.length / 2), Look.Gives I E (p.value f c) V :=
    fun c hc => R.read c (ht ▸ List.mem_of_mem_drop hc)
  exact .bind (.look (.mapM hr)) fun vs hvs => R.keeps_assignAll (fun c hc => hd ▸ hc) hvs

lemma keeps_assignSpread (hk : n.kind = .assignSpread) :
    Op.Keeps I E (p.assignSpread f id) fun _ => True := by
  have hd : Program.destinations n = n.children.dropLast := by
    simp only [Program.destinations, hk]
  apply R.bind_node
  dsimp only
  cases hs : n.children.getLast? with
  | none => exact .throw (R.tolerant _ rfl)
  | some source =>
    refine .bind (.lift (ends_node R.tolerant p source)) fun m hm => ?_
    cases hslot : m.slot with
    | none => exact .throw (R.tolerant _ rfl)
    | some start =>
      refine .bind (.look (R.readSpread hk source m start hs hm hslot)) fun vs hvs => ?_
      exact R.keeps_assignAll (fun c hc => hd ▸ hc) hvs

lemma keeps_assignZero (hk : n.kind = .assignZero) :
    Op.Keeps I E (p.assignZero f id) fun _ => True := by
  have hd : Program.destinations n = n.children.dropLast := by
    simp only [Program.destinations, hk]
  refine R.bind_node (.forM fun c hc => ?_)
  refine .bind (keeps_zero R.toSteady R.tolerant p.graph n.type) fun v hv => ?_
  exact R.writeTo c (hd ▸ hc) v hv

lemma keeps_assignPointer (hk : n.kind = .assignPointer) (hset : Settable I V) :
    Op.Keeps I E (p.assignPointer f id) fun _ => True := by
  have ht : p.touched id n = n.pick [0, 1] := by simp only [Program.touched, hk]
  refine .bind (.look (R.gives_pick ht (by simp))) fun v hv => ?_
  refine .bind (.look (R.gives_pick ht (by simp))) fun target htarget => ?_
  split
  · refine .get fun _ _ => .ite (fun _ => ?_) fun _ => .throw (R.tolerant _ rfl)
    exact .modify fun s hs => hset s _ _ v hs (.inr (.inr ⟨_, htarget⟩)) hv
  · exact .throw (R.tolerant _ rfl)
  · exact .throw (R.tolerant _ rfl)

lemma keeps_assignMap (hk : n.kind = .assignMap) :
    Op.Keeps I E (p.assignMap f id) fun _ => True := by
  have ht : p.touched id n = (n.pick [0]).flatMap (p.pick · [0, 1]) ++ n.pick [1] := by
    simp only [Program.touched, hk]
  have hright : ∀ c, n.child? 1 = some c → c ∈ p.touched id n := fun c hc =>
    ht ▸ List.mem_append_right _ (Node.mem_pick (by simp) hc)
  refine .bind (.lift (R.ends_child 0)) fun target htarget => ?_
  have hleft : ∀ c ∈ p.pick target [0, 1], c ∈ p.touched id n := fun c hc =>
    ht ▸ List.mem_append_left _
      (List.mem_flatMap.mpr ⟨target, Node.mem_pick (by simp) htarget, hc⟩)
  refine .bind (.look (R.gives_operand_of [0, 1] (by simp) hleft)) fun m _ => ?_
  refine .bind (.look (R.gives_operand_of [0, 1] (by simp) hleft)) fun k hkey => ?_
  refine .bind (.look (R.gives_operand hright)) fun v hv => ?_
  refine .bind (.lift (ends_asDict R.faults _ m)) fun d _ => ?_
  cases d with
  | some d => exact .modify fun s hs => R.insertEntry hk s d k v hs hkey hv
  | none => exact .throw (R.tolerant _ rfl)

end Assignment

/-! ### Indices and literals -/

section Composites

variable (R : Regime p f id n I V E)

include R

lemma keeps_index (hk : n.kind = .index) : Op.Keeps I E (p.index f id) fun _ => True := by
  have ht : p.touched id n = n.pick [0, 1] := by simp only [Program.touched, hk]
  refine .bind (.look (R.gives_pick ht (by simp))) fun collection hc => ?_
  refine .bind (.look (R.gives_pick ht (by simp))) fun w _ => ?_
  refine .bind (.lift (ends_asInt R.faults _ w)) fun i _ => ?_
  refine .bind (.look (gives_index R.toSteady R.faults hc i)) fun v hv => ?_
  exact R.writeOwn (by rw [hk]; rfl) v hv

lemma keeps_indexAddress (hk : n.kind = .indexAddress) :
    Op.Keeps I E (p.indexAddress f id) fun _ => True := by
  have ht : p.touched id n = n.pick [0, 1] := by simp only [Program.touched, hk]
  refine .bind (.look (R.gives_pick ht (by simp))) fun collection hc => ?_
  refine .bind (.look (R.gives_pick ht (by simp))) fun w _ => ?_
  refine .bind (.lift (ends_asInt R.faults _ w)) fun i _ => ?_
  refine .bind (.lift (ends_asBlock_known R.faults _ hc)) fun b hb => .get fun t hstore => ?_
  refine .bind (.lift (ends_checkIndex R.faults i _)) fun place hplace => ?_
  exact R.writeOwn (by rw [hk]; rfl) _ (R.address hk t b place hstore hb hplace)

lemma keeps_indexPath (hk : n.kind = .indexPath) :
    Op.Keeps I E (p.indexPath f id) fun _ => True := by
  have ht : p.touched id n = n.pick [0] := by simp only [Program.touched, hk]
  refine .bind (.lift (R.ends_child 1)) fun pathNode _ => ?_
  refine .bind (.lift (ends_node R.tolerant p pathNode)) fun m _ => ?_
  cases m.indices? with
  | none => exact .throw (R.tolerant _ rfl)
  | some path =>
    refine .bind (.look (R.gives_pick ht (by simp))) fun root hroot => ?_
    refine .bind (.look (gives_follow R.toSteady R.faults _ hroot path)) fun v hv => ?_
    exact R.writeOwn (by rw [hk]; rfl) v hv

/-- A zero value of the node's type, as its result. -/
lemma keeps_setZero (hs : n.kind.isStructural = false) :
    Op.Keeps I E
      (do p.setOwn f id (← p.graph.zero (← (p.node id : Except Stop Node)).type))
      fun _ => True :=
  R.bind_node (.bind (keeps_zero R.toSteady R.tolerant p.graph n.type) fun v hv =>
    R.writeOwn hs v hv)

lemma keeps_indexMap (hk : n.kind = .indexMap) :
    Op.Keeps I E (p.indexMap f id) fun _ => True := by
  have ht : p.touched id n = n.pick [0, 1] := by simp only [Program.touched, hk]
  have hs : n.kind.isStructural = false := by rw [hk]; rfl
  refine .bind (.look (R.gives_pick ht (by simp))) fun m _ => ?_
  refine .bind (.look (R.gives_pick ht (by simp))) fun k _ => ?_
  refine .bind (.look (gives_entry R.toSteady R.faults m k)) fun found hfound => ?_
  cases found with
  | some v => exact R.writeOwn hs v (hfound v rfl)
  | none => exact R.keeps_setZero hs

lemma ends_literalType (m : Node) : Ends E (fun _ => True) (p.literalType m) := by
  simp only [Program.literalType]
  split
  · exact trivial
  · exact (ends_node R.tolerant p _).bind fun _ _ => trivial
  · exact trivial

lemma ends_literalShape (m : Node) : Ends E (fun _ => True) (p.literalShape m) := by
  refine (R.ends_literalType m).bind fun t _ => ?_
  cases t with
  | none => exact trivial
  | some t => exact (ends_orStop R.tolerant (p.graph.type t)).bind fun _ _ => trivial

lemma gives_elements (ht : p.touched id n = n.children.drop 1) :
    Look.Gives I E (p.elements f n) fun vs => ∀ v ∈ vs, V v :=
  .mapM fun c hc => R.read c (ht ▸ hc)

omit R in
/-- What was written and what is added to it. -/
lemma all_append {written rest : List Value} (hw : ∀ v ∈ written, V v) (hr : ∀ v ∈ rest, V v) :
    ∀ v ∈ (written ++ rest).toArray, V v := by
  intro v hv
  rcases List.mem_append.mp (List.mem_toArray.mp hv) with hv | hv
  · exact hw v hv
  · exact hr v hv

lemma keeps_arrayLit (hk : n.kind = .arrayLit) :
    Op.Keeps I E (p.arrayLit f id) fun _ => True := by
  have ht : p.touched id n = n.children.drop 1 := by simp only [Program.touched, hk]
  have hs : n.kind.isStructural = false := by rw [hk]; rfl
  refine R.bind_node (.bind (.look (R.gives_elements ht)) fun written hw => ?_)
  refine .bind (.lift (R.ends_literalShape n)) fun shape _ => ?_
  split
  · refine .bind (.times _ (keeps_zero R.toSteady R.tolerant _ _)) fun rest hr => ?_
    refine .bind (keeps_newSlice R.toSteady (all_append hw hr)) fun v hv => ?_
    exact R.writeOwn hs v hv
  · refine .bind (keeps_newSlice R.toSteady fun v hv => hw v (List.mem_toArray.mp hv))
      fun v hv => ?_
    exact R.writeOwn hs v hv

lemma keeps_compositeLit (hk : n.kind = .compositeLit) :
    Op.Keeps I E (p.compositeLit f id) fun _ => True := by
  have ht : p.touched id n = n.children.drop 1 := by simp only [Program.touched, hk]
  have hs : n.kind.isStructural = false := by rw [hk]; rfl
  refine R.bind_node (.bind (.look (R.gives_elements ht)) fun written hw => ?_)
  refine .bind (.lift (R.ends_literalShape n)) fun shape _ => ?_
  split
  · refine .bind (keeps_zeros R.toSteady R.tolerant p _) fun rest hr => ?_
    refine .bind (keeps_newStruct R.toSteady (all_append hw hr)) fun v hv => ?_
    exact R.writeOwn hs v hv
  · refine .bind (keeps_newStruct R.toSteady fun v hv => hw v (List.mem_toArray.mp hv))
      fun v hv => ?_
    exact R.writeOwn hs v hv

lemma keeps_mapLit (hk : n.kind = .mapLit) : Op.Keeps I E (p.mapLit f id) fun _ => True := by
  have ht : p.touched id n = (n.children.drop 1).flatMap (p.pick · [0, 1]) := by
    simp only [Program.touched, hk]
  have hpair : ∀ c ∈ n.children.drop 1,
      Look.Gives I E (p.pair f c) fun e => V e.1 ∧ V e.2 := by
    intro c hc
    have hsub : ∀ a ∈ p.pick c [0, 1], a ∈ p.touched id n := fun a ha =>
      ht ▸ List.mem_flatMap.mpr ⟨c, hc, ha⟩
    refine .bind (R.gives_operand_of [0, 1] (by simp) hsub) fun k hkey => ?_
    refine .bind (R.gives_operand_of [0, 1] (by simp) hsub) fun v hv => ?_
    exact Look.Gives.pure ⟨hkey, hv⟩
  refine R.bind_node (.bind (.look (.mapM hpair)) fun pairs hpairs => ?_)
  refine .bind (.create
    fun s hs => ⟨R.newDict hk s _ hs Dict.proper_empty.foldl
      (Dict.Holds.foldl hpairs Dict.holds_empty), trivial⟩)
    fun d (_ : True) => ?_
  exact R.writeOwn (by rw [hk]; rfl) _ (R.plain _ rfl)

end Composites

end Regime

end Flowgraph
