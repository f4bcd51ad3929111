import Mathlib.Tactic.Common
import Flowgraph.Proofs.Activation
import Flowgraph.Proofs.Upkeep.Operation

/-!
# How operations stop

Whatever values an operation meets, it complains about them with a fault. It stops in another way
only where a node or a type is looked up, where a zero value is made, and where memory is asked
for. `Program.Charted` says of a program how these places stop, and the operations of its known
nodes stop in no other way.
-/

namespace Flowgraph

variable {α : Type} {E : Stop → Prop}

/-- A look at the store stops only in some ways. -/
abbrev Look.Stops (E : Stop → Prop) (look : Look α) : Prop :=
  Look.Gives (fun _ => True) E look fun _ => True

/-- An operation on the store stops only in some ways. -/
abbrev Op.Stops (E : Stop → Prop) (x : Op α) : Prop :=
  Op.Keeps (fun _ => True) E x fun _ => True

lemma steady_true : Steady (fun _ => True) fun _ => True := by
  constructor <;> intros <;> first | exact trivial | exact ⟨trivial, trivial⟩

lemma stops_newSlice (elements : Array Value) : Op.Stops E (Op.newSlice elements) :=
  keeps_newSlice steady_true fun _ _ => trivial

lemma stops_newStruct (fields : Array Value) : Op.Stops E (Op.newStruct fields) :=
  keeps_newStruct steady_true fun _ _ => trivial

/-! ### Known nodes and types -/

/-- The types of the elements and fields that a value of a type has in its block. -/
def Ty.inner : Ty → List TypeId
  | slice elem | array elem _ => [elem]
  | struct fields => fields.map Prod.snd
  | _ => []

lemma Ty.parts_subset_inner (ty : Ty) : ty.parts ⊆ ty.inner := by
  cases ty with
  | array | struct => exact List.Subset.refl _
  | _ => exact List.nil_subset _

/-- Types that are nested less than some number deep in each other have zero values. -/
theorem Graph.stops_zeroAt {g : Graph} (nested : Nat → TypeId → Prop) (htooLarge : E .tooLarge)
    (hzero : ∀ t, nested 0 t → E .endless)
    (hsucc : ∀ depth t, nested (depth + 1) t →
      Ends E (fun ty => ∀ u ∈ ty.parts, nested depth u) (Graph.orStop (g.type t)))
    {depth : Nat} {t : TypeId} (h : nested depth t) : Op.Stops E (g.zeroAt depth t) := by
  induction depth generalizing t with
  | zero => exact .throw (hzero t h)
  | succ depth ih =>
    refine .bind (.lift (hsucc depth t h)) fun ty hparts => ?_
    cases ty with
    | array elem length =>
      have hsize : Ends E (fun _ => True) (checkSize length maxValues) := by
        simp only [checkSize]
        split_ifs
        · exact trivial
        · exact htooLarge
      refine .bind (.lift hsize) fun _ _ => ?_
      refine .bind (.times length (ih (hparts elem List.mem_cons_self))) fun elements _ => ?_
      exact stops_newSlice _
    | struct fields =>
      refine .bind (.mapM fun u hu => ih (hparts u hu)) fun elements _ => ?_
      exact stops_newStruct _
    | _ => exact .pure trivial

/-- All nodes and types that a node refers to are known. -/
structure Node.Refers (N : NodeId → Prop) (T : TypeId → Prop) (n : Node) : Prop where
  children : ∀ c ∈ n.children, N c
  parent : ∀ c, n.parent = some c → N c
  next : ∀ c, n.next = some c → N c
  otherwise : ∀ c, n.otherwise = some c → N c
  type : ∀ t, n.type = some t → T t

/-- Known nodes and types refer to known ones, and what is looked up and made for them stops only in
some ways. -/
structure Program.Charted (p : Program) (N : NodeId → Prop) (T : TypeId → Prop)
    (E : Stop → Prop) : Prop where
  fault : ∀ f, E (.fault f)
  tooLarge : E .tooLarge
  capacityTooLarge : E .capacityTooLarge
  node : ∀ id, N id → Ends E (Node.Refers N T) (p.node id)
  type : ∀ t, T t → Ends E (fun ty => ∀ u ∈ ty.inner, T u) (p.type t)
  zeroAt : ∀ t, T t → Op.Stops E (p.graph.zero (some t))

namespace Program.Charted

variable {p : Program} {N : NodeId → Prop} {T : TypeId → Prop}

section Basics

variable (C : p.Charted N T E) {f : FrameId} {id : NodeId}

include C

lemma faults (f : Fault) (_ : (Stop.fault f).isAddress = false) : E (.fault f) := C.fault f

/-! ### Operands and destinations -/

lemma ends_child (h : N id) (i : Nat) : Ends E N (p.child id i) := by
  refine (C.node id h).bind fun n hn => ?_
  cases hc : n.child? i with
  | some c => exact hn.children c (List.mem_of_getElem? hc)
  | none => exact C.fault _

lemma stops_frameAt (level : Nat) : Look.Stops E (frameAt f level id) := by
  intro s _
  simp only [frameAt]
  split
  · exact trivial
  · exact C.fault _

lemma stops_value (h : N id) : Look.Stops E (p.value f id) := by
  refine .bind (.lift (C.node id h)) fun n _ => ?_
  split_ifs
  · exact .pure trivial
  · refine .bind (C.stops_frameAt n.level) fun owner _ => ?_
    cases n.slot with
    | none => exact .pure trivial
    | some slot =>
      refine .read fun s _ => ?_
      cases s.slot? owner slot with
      | some v => exact trivial
      | none => exact C.fault _

lemma stops_slotsAt (level start count : Nat) : Look.Stops E (slotsAt f level start count id) := by
  refine .bind (C.stops_frameAt level) fun owner _ => .read fun s _ => ?_
  cases s.range? owner start count with
  | some vs => exact trivial
  | none => exact C.fault _

lemma stops_values (h : N id) : Look.Stops E (p.values f id) := by
  refine .bind (.lift (C.node id h)) fun n _ => ?_
  cases n.slot with
  | none => exact .bind (C.stops_value h) fun _ _ => .pure trivial
  | some slot =>
    dsimp only
    split_ifs
    · exact C.stops_slotsAt _ _ _
    · exact .bind (C.stops_value h) fun _ _ => .pure trivial

lemma stops_allValues {ids : List NodeId} (h : ∀ c ∈ ids, N c) :
    Look.Stops E (p.allValues f ids) :=
  .bind (.mapM fun c hc => C.stops_values (h c hc)) fun _ _ => .pure trivial

lemma stops_operand (h : N id) (i : Nat) : Look.Stops E (p.operand f id i) :=
  .bind (.lift (C.ends_child h i)) fun _ hc => C.stops_value hc

/-- An operation whose operand is read first. -/
lemma stops_of_operand (h : N id) (i : Nat) {next : Value → Op α}
    (hn : ∀ v, Op.Stops E (next v)) : Op.Stops E (do next (← (p.operand f id i : Look Value))) :=
  .bind (.look (C.stops_operand h i)) fun v _ => hn v

/-- Control stays at known nodes. -/
lemma gives_successor (h : N id) :
    Look.Gives (fun _ => True) E (p.successor f id) fun next => ∀ t, next = some t → N t := by
  refine .bind (.lift (C.node id h)) fun n hn => ?_
  cases ho : n.otherwise with
  | none => exact .pure hn.next
  | some whenFalse =>
    refine .bind (C.stops_value h) fun v _ => ?_
    refine .bind (.lift (ends_asBool C.faults _ v)) fun b _ => ?_
    split_ifs
    · exact .pure hn.next
    · refine .pure fun t ht => hn.otherwise t ?_
      rw [ho, ht]

lemma stops_setSlot (g : FrameId) (i : Nat) (v : Value) (missing : Fault) :
    Op.Stops E (Op.setSlot g i v (.fault missing)) :=
  .get fun _ _ => .ite (fun _ => .modify fun _ _ => trivial) fun _ => .throw (C.fault _)

lemma stops_setSlots (start : Nat) (vs : List Value) (missing : Fault) :
    Op.Stops E (Op.setSlots f start vs (.fault missing)) := by
  induction vs generalizing start with
  | nil => exact .pure trivial
  | cons v vs ih => exact .bind (C.stops_setSlot f start v missing) fun _ _ => ih (start + 1)

lemma stops_setOwn (h : N id) (v : Value) : Op.Stops E (p.setOwn f id v) := by
  refine .bind (.lift (C.node id h)) fun n _ => ?_
  cases n.slot with
  | none => exact .throw (C.fault _)
  | some slot => exact C.stops_setSlot f slot v _

lemma stops_assignTo (h : N id) (v : Value) : Op.Stops E (p.assignTo f id v) := by
  refine .bind (.lift (C.node id h)) fun n _ => ?_
  cases n.slot with
  | none => exact .pure trivial
  | some slot =>
    exact .bind (.look (C.stops_frameAt n.level)) fun owner _ => C.stops_setSlot owner slot v _

lemma stops_assignAll {ids : List NodeId} (h : ∀ c ∈ ids, N c) (vs : List Value) :
    Op.Stops E (p.assignAll f ids vs) :=
  .forM fun d hd => C.stops_assignTo (h _ (List.of_mem_zip hd).1) d.2

/-! ### Types and zero values -/

lemma stops_zero {t : Option TypeId} (h : ∀ u, t = some u → T u) : Op.Stops E (p.graph.zero t) := by
  cases t with
  | none => exact .pure trivial
  | some u => exact C.zeroAt u (h u rfl)

lemma stops_zeros {ts : List TypeId} (h : ∀ t ∈ ts, T t) : Op.Stops E (p.zeros ts) :=
  (Op.Keeps.mapM fun t ht => C.zeroAt t (h t ht)).mono fun _ _ => trivial

lemma ends_checkSize (size limit : Nat) : Ends E (fun _ => True) (checkSize size limit) := by
  simp only [checkSize]
  split_ifs
  · exact trivial
  · exact C.tooLarge

lemma stops_newChannel (capacity : Nat) : Op.Stops E (Op.newChannel capacity) := by
  refine .bind (P := fun _ => True) (.lift ?_) fun _ _ => .create fun _ _ => ⟨trivial, trivial⟩
  simp only [checkCapacity]
  split_ifs
  · exact C.ends_checkSize _ _
  · exact C.capacityTooLarge

lemma stops_setZero (h : N id) : Op.Stops E
    (do p.setOwn f id (← p.graph.zero (← (p.node id : Except Stop Node)).type)) :=
  .bind (.lift (C.node id h)) fun _ hn => .bind (C.stops_zero hn.type) fun v _ =>
    C.stops_setOwn h v

end Basics

/-! ### Operations -/

section Operations

variable (C : p.Charted N T E) {f : FrameId} {id : NodeId}

include C

lemma stops_binary (h : N id) (op : BinaryOp) : Op.Stops E (p.binary f id op) := by
  refine C.stops_of_operand h 0 fun left => C.stops_of_operand h 1 fun right => ?_
  exact .bind (.lift (ends_evaluate C.faults op left right)) fun v _ => C.stops_setOwn h v

lemma stops_unary (h : N id) {apply : Value → Except Stop Value}
    (ha : ∀ v, Ends E (fun _ => True) (apply v)) : Op.Stops E (p.unary f id apply) :=
  C.stops_of_operand h 0 fun v => .bind (.lift (ha v)) fun w _ => C.stops_setOwn h w

lemma ends_negate (v : Value) : Ends E (fun _ => True) v.negate := by
  cases v <;> first | exact trivial | exact C.fault _

lemma ends_increment (v : Value) : Ends E (fun _ => True) v.increment := by
  cases v <;> first | exact trivial | exact C.fault _

lemma ends_decrement (v : Value) : Ends E (fun _ => True) v.decrement := by
  cases v <;> first | exact trivial | exact C.fault _

/-- An operation whose operand is a truth value. -/
lemma stops_of_bool (h : N id) (i : Nat) (op : String) {next : Bool → Op α}
    (hn : ∀ b, Op.Stops E (next b)) :
    Op.Stops E (do let b ← (← (p.operand f id i : Look Value)).asBool op; next b) :=
  C.stops_of_operand h i fun v => .bind (.lift (ends_asBool C.faults op v)) fun b _ => hn b

lemma stops_land (h : N id) : Op.Stops E (p.land f id) :=
  C.stops_of_bool h 0 "&&" fun _ => .ite
    (fun _ => C.stops_of_bool h 1 "&&" fun _ => C.stops_setOwn h _) fun _ => C.stops_setOwn h _

lemma stops_lor (h : N id) : Op.Stops E (p.lor f id) :=
  C.stops_of_bool h 0 "||" fun _ => .ite
    (fun _ => C.stops_setOwn h _) fun _ => C.stops_of_bool h 1 "||" fun _ => C.stops_setOwn h _

lemma stops_assign (h : N id) : Op.Stops E (p.assign f id) := by
  refine .bind (.lift (C.node id h)) fun n hn => .ite (fun _ => .throw_bind (C.fault _)) fun _ => ?_
  refine .bind (.look (.mapM fun c hc => C.stops_value ?_)) fun vs _ => C.stops_assignAll ?_ vs
  · exact hn.children c (List.mem_of_mem_drop hc)
  · exact fun c hc => hn.children c (List.mem_of_mem_take hc)

lemma stops_assignSpread (h : N id) : Op.Stops E (p.assignSpread f id) := by
  refine .bind (.lift (C.node id h)) fun n hn => ?_
  dsimp only
  cases hs : n.children.getLast? with
  | none => exact .throw (C.fault _)
  | some source =>
    have hsource : N source := hn.children source (List.mem_of_getLast? hs)
    refine .bind (.lift (C.node source hsource)) fun m _ => ?_
    cases m.slot with
    | none => exact .throw (C.fault _)
    | some start =>
      refine .bind (.look (C.stops_slotsAt _ _ _)) fun vs _ => C.stops_assignAll ?_ vs
      exact fun c hc => hn.children c (List.dropLast_subset _ hc)

lemma stops_assignZero (h : N id) : Op.Stops E (p.assignZero f id) := by
  refine .bind (.lift (C.node id h)) fun n hn => .forM fun c hc => ?_
  refine .bind (C.stops_zero hn.type) fun v _ => C.stops_assignTo ?_ v
  exact hn.children c (List.dropLast_subset _ hc)

lemma stops_assignPointer (h : N id) : Op.Stops E (p.assignPointer f id) := by
  refine C.stops_of_operand h 1 fun v => C.stops_of_operand h 0 fun target => ?_
  split
  · refine .get fun _ _ => .ite (fun _ => ?_) fun _ => .throw (C.fault _)
    exact .modify fun _ _ => trivial
  · exact .throw (C.fault _)
  · exact .throw (C.fault _)

lemma stops_assignMap (h : N id) : Op.Stops E (p.assignMap f id) := by
  refine .bind (.lift (C.ends_child h 0)) fun target ht => ?_
  refine C.stops_of_operand ht 0 fun m => C.stops_of_operand ht 1 fun k => ?_
  refine C.stops_of_operand h 1 fun v => .bind (.lift (ends_asDict C.faults _ m)) fun d _ => ?_
  cases d with
  | some d => exact .modify fun _ _ => trivial
  | none => exact .throw (C.fault _)

lemma stops_index (h : N id) : Op.Stops E (p.index f id) := by
  refine C.stops_of_operand h 0 fun collection => C.stops_of_operand h 1 fun w => ?_
  refine .bind (.lift (ends_asInt C.faults _ w)) fun i _ => ?_
  exact .bind (.look (gives_index steady_true C.faults trivial i)) fun v _ => C.stops_setOwn h v

lemma stops_indexAddress (h : N id) : Op.Stops E (p.indexAddress f id) := by
  refine C.stops_of_operand h 0 fun collection => C.stops_of_operand h 1 fun w => ?_
  refine .bind (.lift (ends_asInt C.faults _ w)) fun i _ => ?_
  refine .bind (.lift (ends_asBlock C.faults _ collection)) fun b _ => .get fun t _ => ?_
  exact .bind (.lift (ends_checkIndex C.faults i _)) fun place _ => C.stops_setOwn h _

lemma stops_indexPath (h : N id) : Op.Stops E (p.indexPath f id) := by
  refine .bind (.lift (C.ends_child h 1)) fun pathNode hp => ?_
  refine .bind (.lift (C.node pathNode hp)) fun m _ => ?_
  cases m.indices? with
  | none => exact .throw (C.fault _)
  | some path =>
    refine C.stops_of_operand h 0 fun root => ?_
    refine .bind (.look (gives_follow steady_true C.faults _ trivial path)) fun v _ => ?_
    exact C.stops_setOwn h v

lemma stops_indexMap (h : N id) : Op.Stops E (p.indexMap f id) := by
  refine C.stops_of_operand h 0 fun m => C.stops_of_operand h 1 fun k => ?_
  refine .bind (.look (gives_entry steady_true C.faults m k)) fun found _ => ?_
  cases found with
  | some v => exact C.stops_setOwn h v
  | none => exact C.stops_setZero h

/-! ### Literals -/

lemma ends_literalType {n : Node} (hn : n.Refers N T) :
    Ends E (fun t => ∀ u, t = some u → T u) (p.literalType n) := by
  simp only [Program.literalType]
  split
  case h_1 t ht => exact fun u hu => hn.type u (ht.trans hu)
  case h_2 c _ hc =>
    exact (C.node c (hn.children c (List.mem_of_getElem? hc))).bind fun m hm => hm.type
  case h_3 => exact fun u hu => by cases hu

lemma ends_literalShape {n : Node} (hn : n.Refers N T) :
    Ends E (fun shape => ∀ ty, shape = some ty → ∀ u ∈ ty.inner, T u) (p.literalShape n) := by
  refine (C.ends_literalType hn).bind fun t ht => ?_
  cases t with
  | none => exact fun ty hty => by cases hty
  | some t => exact (C.type t (ht t rfl)).bind fun ty hty ty' he => by cases he; exact hty

lemma stops_elements {n : Node} (hn : n.Refers N T) : Look.Stops E (p.elements f n) :=
  (Look.Gives.mapM fun c hc => C.stops_value (hn.children c (List.mem_of_mem_drop hc))).mono
    fun _ _ => trivial

lemma stops_arrayLit (h : N id) : Op.Stops E (p.arrayLit f id) := by
  refine .bind (.lift (C.node id h)) fun n hn => .bind (.look (C.stops_elements hn)) fun vs _ => ?_
  refine .bind (.lift (C.ends_literalShape hn)) fun shape hshape => ?_
  split
  case h_1 elem length =>
    have helem : T elem := hshape _ rfl elem List.mem_cons_self
    refine .bind (.times _ (C.zeroAt elem helem)) fun rest _ => ?_
    exact .bind (stops_newSlice _) fun v _ => C.stops_setOwn h v
  case h_2 => exact .bind (stops_newSlice _) fun v _ => C.stops_setOwn h v

lemma stops_compositeLit (h : N id) : Op.Stops E (p.compositeLit f id) := by
  refine .bind (.lift (C.node id h)) fun n hn => .bind (.look (C.stops_elements hn)) fun vs _ => ?_
  refine .bind (.lift (C.ends_literalShape hn)) fun shape hshape => ?_
  split
  case h_1 fields =>
    have hfields : ∀ t ∈ (fields.map Prod.snd).drop vs.length, T t := fun t ht =>
      hshape _ rfl t (List.mem_of_mem_drop ht)
    refine .bind (C.stops_zeros hfields) fun rest _ => ?_
    exact .bind (stops_newStruct _) fun v _ => C.stops_setOwn h v
  case h_2 => exact .bind (stops_newStruct _) fun v _ => C.stops_setOwn h v

lemma stops_mapLit (h : N id) : Op.Stops E (p.mapLit f id) := by
  have hpair : ∀ c, N c → Look.Stops E (p.pair f c) := fun c hc =>
    .bind (C.stops_operand hc 0) fun _ _ => .bind (C.stops_operand hc 1) fun _ _ => .pure trivial
  refine .bind (.lift (C.node id h)) fun n hn => ?_
  refine .bind (.look (.mapM fun c hc => hpair c ?_)) fun pairs _ => ?_
  · exact hn.children c (List.mem_of_mem_drop hc)
  · refine .bind (P := fun _ => True) (.create fun _ _ => ⟨trivial, trivial⟩) fun d _ => ?_
    exact C.stops_setOwn h _

lemma stops_setKeyed (h : N id) (b : BlockId) : Op.Stops E (p.setKeyed f b id) := by
  refine .bind (.lift (C.node id h)) fun n _ => ?_
  cases n.field? with
  | none => exact .throw (C.fault _)
  | some field =>
    have hset : ∀ v, Op.Stops E (Op.setElement b (saturate field) v) := fun v =>
      keeps_setElement (V := fun _ => True) C.faults (fun _ _ _ _ _ => trivial) _ trivial
    refine .ite (fun _ => ?_) fun _ => ?_
    · exact .bind (.look (C.stops_operand h 1)) fun v _ => hset v
    · exact .bind (.look (C.stops_value h)) fun v _ => hset v

lemma stops_keyedLit (h : N id) : Op.Stops E (p.keyedLit f id) := by
  refine .bind (.lift (C.node id h))
    fun n hn => .bind (.lift (C.ends_literalType hn)) fun t ht => ?_
  refine .bind (C.stops_zero ht) fun v _ => .bind (.lift (ends_asBlock C.faults _ v)) fun b _ => ?_
  refine .bind (.forM fun c hc => C.stops_setKeyed ?_ b) fun _ _ => C.stops_setOwn h v
  exact hn.children c (List.mem_of_mem_drop hc)

lemma stops_funcLit (h : N id) : Op.Stops E (p.funcLit f id) := by
  refine .bind (.lift (C.node id h)) fun n _ => ?_
  split
  · exact C.stops_setOwn h _
  · exact .throw (C.fault _)

/-! ### Builtins -/

lemma ends_madeType (h : N id) : Ends E T (p.madeType id) := by
  refine (C.ends_child h 1).bind fun c hc => (C.node c hc).bind fun m hm => ?_
  refine (C.node id h).bind fun n hn => ?_
  split
  case h_1 t ht => exact hm.type t ht
  case h_2 t _ ht => exact hn.type t ht
  case h_3 => exact C.fault _

lemma stops_madeSize (h : N id) : Look.Stops E (p.madeSize f id) := by
  refine .bind (.lift (C.node id h)) fun n hn => ?_
  cases hc : n.child? 2 with
  | none => exact .pure trivial
  | some arg =>
    refine .bind (C.stops_value (hn.children arg (List.mem_of_getElem? hc))) fun v _ => ?_
    refine .bind (.lift (ends_asInt C.faults _ v)) fun i _ => ?_
    split_ifs
    · exact .pure trivial
    · exact .throw (C.fault _)

lemma stops_make (h : N id) : Op.Stops E (p.make f id) := by
  refine .bind (.lift (C.ends_madeType h))
    fun t ht => .bind (.look (C.stops_madeSize h)) fun n _ => ?_
  refine .bind (.lift (C.type t ht)) fun ty hty => ?_
  split
  case h_1 elem =>
    refine .bind (.lift (C.ends_checkSize _ _)) fun _ _ => ?_
    refine .bind (.times n (C.zeroAt elem (hty elem List.mem_cons_self))) fun zeros _ => ?_
    exact .bind (stops_newSlice _) fun v _ => C.stops_setOwn h v
  case h_2 => exact .bind (C.stops_newChannel n) fun c _ => C.stops_setOwn h _
  case h_3 =>
    refine .bind (P := fun _ => True) (.create fun _ _ => ⟨trivial, trivial⟩) fun d _ => ?_
    exact C.stops_setOwn h _
  case h_4 => exact .throw (C.fault _)

lemma stops_len (h : N id) : Op.Stops E (p.len f id) :=
  C.stops_of_operand h 1 fun v => .bind (.look (gives_length C.faults v)) fun _ _ =>
    C.stops_setOwn h _

lemma stops_close (h : N id) : Op.Stops E (p.close f id) := by
  refine C.stops_of_operand h 1 fun v => .bind (.lift (ends_asChannel C.faults _ v)) fun c _ => ?_
  exact .get fun _ _ => .ite (fun _ => .throw (C.fault _)) fun _ => .modify fun _ _ => trivial

lemma stops_println (h : N id) : Op.Stops E (p.println f id) := by
  refine .bind (.lift (C.node id h)) fun n hn => .bind (.look (C.stops_allValues ?_)) fun vs _ => ?_
  · exact fun c hc => hn.children c (List.mem_of_mem_drop hc)
  · exact .get fun _ _ => .modify fun _ _ => trivial

lemma stops_ret (h : N id) : Op.Stops E (p.ret f id) := by
  refine .bind (.lift (C.node id h)) fun n hn => ?_
  exact .bind (.look (C.stops_allValues hn.children)) fun vs _ => C.stops_setSlots 0 vs _

lemma ends_switchOf (h : N id) : Ends E N (p.switchOf id) := by
  refine (C.node id h).bind fun n hn => ?_
  cases hp : n.parent with
  | none => exact C.fault _
  | some clause =>
    refine (C.node clause (hn.parent clause hp)).bind fun m hm => ?_
    cases hq : m.parent with
    | none => exact C.fault _
    | some switch => exact hm.parent switch hq

lemma stops_caseTest (h : N id) : Op.Stops E (p.caseTest f id) := by
  have hmatches : Look.Stops E (p.caseMatches f id) := by
    refine .bind (.lift (C.node id h)) fun n hn => ?_
    cases hc : n.child? 0 with
    | none => exact .pure trivial
    | some expr =>
      refine .bind (.lift (C.ends_switchOf h)) fun switch hs => ?_
      refine .bind (C.stops_operand hs 0) fun _ _ => ?_
      refine .bind (C.stops_value (hn.children expr (List.mem_of_getElem? hc))) fun _ _ => ?_
      exact .pure trivial
  exact .bind (.look hmatches) fun b _ => C.stops_setOwn h _

/-! ### Loops, channels and sleep -/

lemma ends_rangeSlot (h : N id) : Ends E (fun _ => True) (p.rangeSlot id) := by
  refine (C.node id h).bind fun n _ => ?_
  cases n.slot with
  | some slot => exact trivial
  | none => exact C.fault _

lemma stops_visit (h : N id) (key value next : Value) :
    Op.Stops E (p.visit f id key value next) := by
  refine .bind (.lift (C.ends_rangeSlot h)) fun slot _ => ?_
  refine .bind (.lift (C.ends_child h 0)) fun c hc => .bind (C.stops_assignTo hc key) fun _ _ => ?_
  refine .bind (.lift (C.ends_child h 1))
    fun c hc => .bind (C.stops_assignTo hc value) fun _ _ => ?_
  exact .bind (.modify fun _ _ => trivial) fun _ _ => C.stops_setOwn h _

lemma stops_finish (h : N id) : Op.Stops E (p.finish f id) :=
  .bind (.lift (C.ends_rangeSlot h)) fun _ _ => .bind (.modify fun _ _ => trivial) fun _ _ =>
    C.stops_setOwn h _

lemma stops_iteration (h : N id) (iteration : Iteration) :
    Op.Stops E
      (match iteration with
      | .visit key value next => do p.visit f id key value next; return Pending.done
      | .finished => do p.finish f id; return Pending.done
      | .await c next => return .receive c (.visit next)) := by
  cases iteration with
  | visit key value next => exact .bind (C.stops_visit h key value next) fun _ _ => .pure trivial
  | finished => exact .bind (C.stops_finish h) fun _ _ => .pure trivial
  | await c next => exact .pure trivial

lemma stops_range (h : N id) : Op.Stops E (p.range f id) := by
  refine .bind (.lift (C.ends_rangeSlot h)) fun slot _ => ?_
  refine .bind (.lift (C.ends_child h 0)) fun _ _ => .bind (.lift (C.ends_child h 1)) fun _ _ => ?_
  refine C.stops_of_operand h 2 fun collection => .get fun t _ => ?_
  dsimp only
  split
  · refine .bind (P := fun _ => True) (.pure trivial) fun position _ => ?_
    split
    case h_1 d =>
      have hcursor : Op.Keeps (fun _ => True) E (Op.cursor d position) fun _ => True ∧ True :=
        (keeps_cursor steady_true C.faults d trivial).mono fun _ _ => ⟨trivial, trivial⟩
      refine .bind (keeps_iterateMap steady_true C.faults hcursor fun _ _ _ _ _ _ => trivial)
        fun iteration _ => ?_
      exact C.stops_iteration h iteration
    case h_2 =>
      refine .bind (.lift (ends_sequencePosition C.faults _)) fun i _ => ?_
      refine .bind (.look (gives_iterate steady_true C.faults trivial i)) fun iteration _ => ?_
      exact C.stops_iteration h iteration
  · exact .throw_bind (C.fault _)

lemma stops_visitReceived (h : N id) (next : Value) (v : Option Value) :
    Op.Stops E (p.visitReceived f id next v) := by
  cases v with
  | some v => exact C.stops_visit h v .nil next
  | none => exact C.stops_finish h

lemma stops_storeReceived (h : N id) (v : Option Value) :
    Op.Stops E (p.storeReceived f id v) := by
  cases v with
  | some v => exact C.stops_setOwn h v
  | none => exact C.stops_setZero h

lemma stops_sleep (h : N id) : Look.Stops E (p.sleep f id) :=
  .bind (C.stops_operand h 1) fun v _ => .bind (.lift (ends_asInt C.faults _ v)) fun _ _ =>
    .pure trivial

lemma stops_send (h : N id) : Look.Stops E (p.send f id) :=
  .bind (C.stops_operand h 0) fun c _ => .bind (C.stops_operand h 1) fun _ _ =>
    .bind (.lift (ends_asChannel C.faults _ c)) fun _ _ => .pure trivial

lemma stops_receive (h : N id) : Look.Stops E (p.receive f id) :=
  .bind (C.stops_operand h 0) fun c _ => .bind (.lift (ends_asChannel C.faults _ c)) fun _ _ =>
    .pure trivial

/-! ### All operations but calls -/

omit C in
lemma stops_completely {x : Op Unit} (h : Op.Stops E x) : Op.Stops E (completely x) :=
  .bind h fun _ _ => .pure trivial

/-- Whatever a known node is, unless it calls a function: its operation stops as charted, in every
store. -/
theorem stops_operation (h : N id) {k : Kind} (hc : k ≠ .call) (hs : k ≠ .spawn) :
    Op.Stops E (p.operation f id k) := by
  cases k with
  | binary op => exact stops_completely (C.stops_binary h op)
  | neg => exact stops_completely (C.stops_unary h C.ends_negate)
  | inc => exact stops_completely (C.stops_unary h C.ends_increment)
  | dec => exact stops_completely (C.stops_unary h C.ends_decrement)
  | not =>
    exact stops_completely (C.stops_of_bool h 0 "!" fun _ => C.stops_setOwn h _)
  | land => exact stops_completely (C.stops_land h)
  | lor => exact stops_completely (C.stops_lor h)
  | assign => exact stops_completely (C.stops_assign h)
  | assignSpread => exact stops_completely (C.stops_assignSpread h)
  | assignZero => exact stops_completely (C.stops_assignZero h)
  | assignPointer => exact stops_completely (C.stops_assignPointer h)
  | assignMap => exact stops_completely (C.stops_assignMap h)
  | arrayLit => exact stops_completely (C.stops_arrayLit h)
  | mapLit => exact stops_completely (C.stops_mapLit h)
  | compositeLit => exact stops_completely (C.stops_compositeLit h)
  | keyedLit => exact stops_completely (C.stops_keyedLit h)
  | index => exact stops_completely (C.stops_index h)
  | indexAddress => exact stops_completely (C.stops_indexAddress h)
  | indexPath => exact stops_completely (C.stops_indexPath h)
  | indexMap => exact stops_completely (C.stops_indexMap h)
  | make => exact stops_completely (C.stops_make h)
  | receive => exact .look (C.stops_receive h)
  | send => exact .look (C.stops_send h)
  | close => exact stops_completely (C.stops_close h)
  | len => exact stops_completely (C.stops_len h)
  | sleep => exact .look (C.stops_sleep h)
  | println => exact stops_completely (C.stops_println h)
  | range => exact C.stops_range h
  | ret => exact stops_completely (C.stops_ret h)
  | caseTest => exact stops_completely (C.stops_caseTest h)
  | call => exact absurd rfl hc
  | spawn => exact absurd rfl hs
  | funcLit => exact stops_completely (C.stops_funcLit h)
  | _ => exact .pure trivial

end Operations

end Program.Charted

end Flowgraph
