import Flowgraph.Proofs.Activation
import Flowgraph.Proofs.Names.Operands
import Flowgraph.Proofs.Names.Text

/-!
# Operations follow renaming

One lemma for each operation, by the structure of its definition, and from them the result for all
kinds of nodes: no operation depends on which names things have.
-/

namespace Flowgraph

open Named

variable {π : Renaming} {p : Program}

instance : Named Activation where
  rename π a := { a with frame := rename π a.frame }
  Mentions a := Mentions a.frame
  rename_id _ := by simp
  rename_rename _ _ _ := by simp
  rename_eq_iff _ _ _ := by simp [rename_eq_iff]

instance : Named Callee where
  rename π
    | .declared a => .declared (rename π a)
    | .native name args => .native name (rename π args)
  Mentions c T k := match c with
    | .declared a => Mentions a T k
    | .native _ args => Mentions args T k
  rename_id c := by cases c <;> simp
  rename_rename σ π c := by cases c <;> simp
  rename_eq_iff ρ σ c := by cases c <;> simp [rename_eq_iff]

instance : Named Program.Binding where
  rename π
    | .declared decl parent receiver args =>
      .declared decl (rename π parent) (rename π receiver) (rename π args)
    | .native name args => .native name (rename π args)
  Mentions b T k := match b with
    | .declared _ parent receiver args =>
      Mentions parent T k ∨ Mentions receiver T k ∨ Mentions args T k
    | .native _ args => Mentions args T k
  rename_id b := by cases b <;> simp
  rename_rename σ π b := by cases b <;> simp
  rename_eq_iff ρ σ b := by cases b <;> simp [rename_eq_iff, or_imp, forall_and]

instance : Named Purpose where
  rename π
    | .result => .result
    | .visit next => .visit (rename π next)
  Mentions c T k := match c with
    | .result => False
    | .visit next => Mentions next T k
  rename_id c := by cases c <;> simp
  rename_rename σ π c := by cases c <;> simp
  rename_eq_iff ρ σ c := by cases c <;> simp [rename_eq_iff]

instance : Named Pending where
  rename π
    | .done => .done
    | .send c v => .send (rename π c) (rename π v)
    | .receive c purpose => .receive (rename π c) (rename π purpose)
    | .sleep milliseconds => .sleep milliseconds
    | .call callee => .call (rename π callee)
    | .spawn callee => .spawn (rename π callee)
  Mentions c T k := match c with
    | .done | .sleep _ => False
    | .send c v => Mentions c T k ∨ Mentions v T k
    | .receive c purpose => Mentions c T k ∨ Mentions purpose T k
    | .call callee | .spawn callee => Mentions callee T k
  rename_id c := by cases c <;> simp
  rename_rename σ π c := by cases c <;> simp
  rename_eq_iff ρ σ c := by cases c <;> simp [rename_eq_iff, or_imp, forall_and]

namespace Program

/-! ### Arithmetic -/

/-- An operator looks at nothing but the contents of scalars and at which values are equal. -/
lemma evaluate_rename (hπ : π.Injective) (op : BinaryOp) (v w : Value) :
    op.evaluate (rename π v) (rename π w) = rename π (op.evaluate v w) := by
  have hcompared : ∀ o, rename π (op.compared o) = op.compared o := fun o => by
    unfold BinaryOp.compared
    cases op.accepts o <;> rfl
  have hints : ∀ a b, rename π (op.onInts a b) = op.onInts a b := fun a b => by
    unfold BinaryOp.onInts
    split <;> first | rfl | exact hcompared _ | (split_ifs <;> rfl)
  have hfloats : ∀ a b, rename π (op.onFloats a b) = op.onFloats a b := fun a b => by
    unfold BinaryOp.onFloats
    split <;> first | rfl | (split <;> first | rfl | exact hcompared _)
  have htexts : ∀ a b, rename π (op.onTexts a b) = op.onTexts a b := fun a b => by
    unfold BinaryOp.onTexts
    split <;> first | rfl | exact hcompared _
  unfold BinaryOp.evaluate
  rw [beq_rename hπ]
  split
  · rfl
  · rfl
  · cases v <;> cases w <;>
      simp only [rename_nil_value, rename_bool, rename_int, rename_float, rename_str, rename_slice,
        rename_struct, rename_pointer, rename_map, rename_chan, rename_func, rename_native,
        hints, hfloats, htexts] <;> rfl

lemma follows_binary (hπ : π.Injective) (hp : p.Loaded) (f : FrameId) (id : NodeId)
    (op : BinaryOp) : Op.Follows π (p.binary f id op) (p.binary (rename π f) id op) := by
  refine .bind (.look (follows_operand hp f id 0)) fun v => ?_
  refine .bind (.look (follows_operand hp f id 1)) fun w => ?_
  exact .bind (.lift (evaluate_rename hπ op v w)) fun u => follows_setOwn f id u

lemma follows_unary (hp : p.Loaded) (f : FrameId) (id : NodeId)
    {apply : Value → Except Stop Value} (ha : ∀ v, apply (rename π v) = rename π (apply v)) :
    Op.Follows π (p.unary f id apply) (p.unary (rename π f) id apply) := by
  refine .bind (.look (follows_operand hp f id 0)) fun v => ?_
  exact .bind (.lift (ha v)) fun u => follows_setOwn f id u

lemma follows_setBool (f : FrameId) (id : NodeId) (b : Bool) :
    Op.Follows π (p.setOwn f id (.bool b)) (p.setOwn (rename π f) id (.bool b)) :=
  follows_setOwn f id (.bool b)

/-- A truth value is read, and something is done with it. -/
lemma follows_asBool (hp : p.Loaded) {f : FrameId} {id : NodeId} {i : Nat} {op : String}
    {x y : Bool → Op Unit} (h : ∀ b, Op.Follows π (x b) (y b)) :
    Op.Follows π (do x (← (← p.operand f id i).asBool op))
      (do y (← (← p.operand (rename π f) id i).asBool op)) := by
  refine .bind (.look (follows_operand hp f id i)) fun v => ?_
  rw [asBool_rename]
  exact .same fun b _ => h b

lemma follows_lnot (hp : p.Loaded) (f : FrameId) (id : NodeId) :
    Op.Follows π (p.lnot f id) (p.lnot (rename π f) id) :=
  follows_asBool hp fun b => follows_setBool f id !b

lemma follows_land (hp : p.Loaded) (f : FrameId) (id : NodeId) :
    Op.Follows π (p.land f id) (p.land (rename π f) id) :=
  follows_asBool hp fun _ => .ite Iff.rfl (follows_asBool hp fun c => follows_setBool f id c)
    (follows_setBool f id false)

lemma follows_lor (hp : p.Loaded) (f : FrameId) (id : NodeId) :
    Op.Follows π (p.lor f id) (p.lor (rename π f) id) :=
  follows_asBool hp fun _ => .ite Iff.rfl (follows_setBool f id true)
    (follows_asBool hp fun c => follows_setBool f id c)

/-! ### Assignment -/

lemma follows_assign (hp : p.Loaded) (f : FrameId) (id : NodeId) :
    Op.Follows π (p.assign f id) (p.assign (rename π f) id) := by
  refine .same fun n _ => ?_
  have hrest : Op.Follows π
      (do let vs ← ((n.children.drop (n.children.length / 2)).mapM (p.value f) : Look (List Value))
          p.assignAll f (n.children.take (n.children.length / 2)) vs)
      (do let vs ← ((n.children.drop (n.children.length / 2)).mapM
            (p.value (rename π f)) : Look (List Value))
          p.assignAll (rename π f) (n.children.take (n.children.length / 2)) vs) :=
    .bind (.look (.mapM _ fun c _ => follows_value hp f c)) fun vs => follows_assignAll f _ vs
  dsimp only
  exact .ite Iff.rfl (.throw _) hrest

lemma follows_assignSpread (f : FrameId) (id : NodeId) :
    Op.Follows π (p.assignSpread f id) (p.assignSpread (rename π f) id) := by
  refine .same fun n _ => ?_
  dsimp only
  cases n.children.getLast? with
  | none => exact .throw _
  | some source =>
    refine .same fun m _ => ?_
    cases m.slot with
    | none => exact .throw _
    | some start =>
      refine .bind (.look (follows_slotsAt f m.level start _ source)) fun vs => ?_
      exact follows_assignAll f _ vs

lemma follows_assignZero (f : FrameId) (id : NodeId) :
    Op.Follows π (p.assignZero f id) (p.assignZero (rename π f) id) :=
  .same fun n _ => .forM _ fun c _ =>
    .bind (follows_zero _ n.type) fun v => follows_assignTo f c v

lemma follows_assignPointer (hp : p.Loaded) (f : FrameId) (id : NodeId) :
    Op.Follows π (p.assignPointer f id) (p.assignPointer (rename π f) id) := by
  refine .bind (.look (follows_operand hp f id 1)) fun v => ?_
  refine .bind (.look (follows_operand hp f id 0)) fun target => ?_
  cases target with
  | pointer b i =>
    refine .inspect (fun s => ?_) fun s t hst => ?_
    · by_cases h : i < (s.block b).size
      · rw [if_pos h]
        exact s.grows_setElement b i v
      · rw [if_neg h]
        exact .refl s
    · refine .ite (by rw [hst.block_size]) (.modify ?_ ?_) (.throw _)
      · exact fun s => s.grows_setElement b i v
      · exact fun s t hst => hst.setElement b i v
  | _ => exact .throw _

lemma follows_assignMap (hp : p.Loaded) (f : FrameId) (id : NodeId) :
    Op.Follows π (p.assignMap f id) (p.assignMap (rename π f) id) := by
  refine .same fun target _ => ?_
  refine .bind (.look (follows_operand hp f target 0)) fun m => ?_
  refine .bind (.look (follows_operand hp f target 1)) fun k => ?_
  refine .bind (.look (follows_operand hp f id 1)) fun v => ?_
  refine .bind (.lift (asDict_rename π _ m)) fun d => ?_
  cases d with
  | none => exact .throw _
  | some d =>
    exact .modify (fun s => s.grows_insertEntry d k v) fun s t hst => hst.insertEntry d k v

/-! ### Indexing -/

lemma follows_index (hp : p.Loaded) (f : FrameId) (id : NodeId) :
    Op.Follows π (p.index f id) (p.index (rename π f) id) := by
  refine .bind (.look (follows_operand hp f id 0)) fun collection => ?_
  refine .bind (.look (follows_operand hp f id 1)) fun i => ?_
  rw [asInt_rename]
  refine .same fun i _ => ?_
  exact .bind (.look (Look.follows_index collection i)) fun v => follows_setOwn f id v

lemma follows_indexAddress (hp : p.Loaded) (f : FrameId) (id : NodeId) :
    Op.Follows π (p.indexAddress f id) (p.indexAddress (rename π f) id) := by
  refine .bind (.look (follows_operand hp f id 0)) fun collection => ?_
  refine .bind (.look (follows_operand hp f id 1)) fun i => ?_
  rw [asInt_rename]
  refine .same fun i _ => ?_
  refine .bind (.lift (asBlock_rename π _ collection)) fun b => ?_
  have hset : ∀ size, Op.Follows π
      (do p.setOwn f id (.pointer b (← checkIndex i size)))
      (do p.setOwn (rename π f) id (.pointer (rename π b) (← checkIndex i size))) :=
    fun size => .same fun place _ => follows_setOwn f id (.pointer b place)
  refine .inspect (fun s => (hset _).grows s) fun s t hst => ?_
  rw [hst.block_size]
  exact hset _

lemma follows_indexPath (hp : p.Loaded) (f : FrameId) (id : NodeId) :
    Op.Follows π (p.indexPath f id) (p.indexPath (rename π f) id) := by
  refine .same fun pathNode _ => .same fun n _ => ?_
  cases n.indices? with
  | none => exact .throw _
  | some path =>
    refine .bind (.look (follows_operand hp f id 0)) fun root => ?_
    exact .bind (.look (Look.follows_follow _ root path)) fun v => follows_setOwn f id v

lemma follows_setZero (f : FrameId) (id : NodeId) :
    Op.Follows π (do p.setOwn f id (← p.graph.zero (← p.node id).type))
      (do p.setOwn (rename π f) id (← p.graph.zero (← p.node id).type)) :=
  .same fun n _ => .bind (follows_zero _ n.type) fun v => follows_setOwn f id v

lemma follows_indexMap (hp : p.Loaded) (f : FrameId) (id : NodeId) :
    Op.Follows π (p.indexMap f id) (p.indexMap (rename π f) id) := by
  refine .bind (.look (follows_operand hp f id 0)) fun m => ?_
  refine .bind (.look (follows_operand hp f id 1)) fun k => ?_
  refine .bind (.look (Look.follows_entry m k)) fun found => ?_
  cases found with
  | some v => exact follows_setOwn f id v
  | none => exact follows_setZero f id

/-! ### Literals -/

lemma follows_newSlice_setOwn (f : FrameId) (id : NodeId) (elements : List Value) :
    Op.Follows π (do p.setOwn f id (← Op.newSlice elements.toArray))
      (do p.setOwn (rename π f) id (← Op.newSlice (rename π elements).toArray)) := by
  have h := Op.follows_newSlice (π := π) elements.toArray
  rw [rename_array, List.map_toArray, ← rename_list] at h
  exact .bind h fun v => follows_setOwn f id v

lemma follows_newStruct_setOwn (f : FrameId) (id : NodeId) (fields : List Value) :
    Op.Follows π (do p.setOwn f id (← Op.newStruct fields.toArray))
      (do p.setOwn (rename π f) id (← Op.newStruct (rename π fields).toArray)) := by
  have h := Op.follows_newStruct (π := π) fields.toArray
  rw [rename_array, List.map_toArray, ← rename_list] at h
  exact .bind h fun v => follows_setOwn f id v

lemma follows_elements (hp : p.Loaded) (f : FrameId) (n : Node) :
    Look.Follows π (p.elements f n) (p.elements (rename π f) n) :=
  .mapM _ fun c _ => follows_value hp f c

lemma follows_arrayLit (hp : p.Loaded) (f : FrameId) (id : NodeId) :
    Op.Follows π (p.arrayLit f id) (p.arrayLit (rename π f) id) := by
  refine .same fun n _ => .bind (.look (follows_elements hp f n)) fun written => ?_
  refine .same fun shape _ => ?_
  have hwritten := follows_newSlice_setOwn (π := π) (p := p) f id written
  cases shape with
  | none => exact hwritten
  | some ty =>
    cases ty with
    | array elem length =>
      rw [rename_list π written, List.length_map, ← rename_list]
      refine .bind (.times _ (follows_zero _ _)) fun rest => ?_
      rw [← rename_append]
      exact follows_newSlice_setOwn f id (written ++ rest)
    | _ => exact hwritten

lemma follows_compositeLit (hp : p.Loaded) (f : FrameId) (id : NodeId) :
    Op.Follows π (p.compositeLit f id) (p.compositeLit (rename π f) id) := by
  refine .same fun n _ => .bind (.look (follows_elements hp f n)) fun written => ?_
  refine .same fun shape _ => ?_
  have hwritten := follows_newStruct_setOwn (π := π) (p := p) f id written
  cases shape with
  | none => exact hwritten
  | some ty =>
    cases ty with
    | struct fields =>
      rw [rename_list π written, List.length_map, ← rename_list]
      refine .bind (.mapM _ fun t _ => follows_zero _ _) fun rest => ?_
      rw [← rename_append]
      exact follows_newStruct_setOwn f id (written ++ rest)
    | _ => exact hwritten

lemma follows_pair (hp : p.Loaded) (f : FrameId) (id : NodeId) :
    Look.Follows π (p.pair f id) (p.pair (rename π f) id) :=
  .bind (follows_operand hp f id 0) fun _ => .bind (follows_operand hp f id 1) fun _ => .pure rfl

lemma rename_foldl_insert (hπ : π.Injective) (d : Dict) (pairs : List (Value × Value)) :
    (rename π pairs).foldl (fun (d : Dict) (k, v) => d.insert k v) (rename π d)
      = rename π (pairs.foldl (fun (d : Dict) (k, v) => d.insert k v) d) := by
  induction pairs generalizing d with
  | nil => rfl
  | cons e es ih =>
    have hrest := ih (d.insert e.1 e.2)
    rw [← rename_dict_insert hπ] at hrest
    exact hrest

lemma follows_mapLit (hπ : π.Injective) (hp : p.Loaded) (f : FrameId) (id : NodeId) :
    Op.Follows π (p.mapLit f id) (p.mapLit (rename π f) id) := by
  refine .same fun n _ => .bind (.look (.mapM _ fun c _ => follows_pair hp f c)) fun pairs => ?_
  have hcontent := rename_foldl_insert hπ {} pairs
  rw [show rename π ({} : Dict) = {} from rfl] at hcontent
  dsimp only
  rw [hcontent]
  exact .bind (Op.follows_newDict _) fun d => follows_setOwn f id (.map d)

lemma follows_setKeyed (hp : p.Loaded) (f : FrameId) (b : BlockId) (id : NodeId) :
    Op.Follows π (p.setKeyed f b id) (p.setKeyed (rename π f) (rename π b) id) := by
  refine .same fun n _ => ?_
  cases n.field? with
  | none => exact .throw _
  | some field =>
    refine .ite Iff.rfl (.bind (.look (follows_operand hp f id 1)) fun v => ?_)
      (.bind (.look (follows_value hp f id)) fun v => ?_)
    · exact Op.follows_setElement b _ v
    · exact Op.follows_setElement b _ v

lemma follows_keyedLit (hp : p.Loaded) (f : FrameId) (id : NodeId) :
    Op.Follows π (p.keyedLit f id) (p.keyedLit (rename π f) id) := by
  refine .same fun n _ => .same fun t _ => .bind (follows_zero _ t) fun v => ?_
  refine .bind (.lift (asBlock_rename π _ v)) fun b => ?_
  exact .bind (.forM _ fun c _ => follows_setKeyed hp f b c) fun _ => follows_setOwn f id v

lemma follows_funcLit (f : FrameId) (id : NodeId) :
    Op.Follows π (p.funcLit f id) (p.funcLit (rename π f) id) := by
  refine .same fun n _ => ?_
  split
  · exact follows_setOwn f id (.func _ (some f))
  · exact .throw _

/-! ### Builtins and channel operators -/

lemma follows_madeSize (hp : p.Loaded) (f : FrameId) (id : NodeId) :
    Look.Follows π (p.madeSize f id) (p.madeSize (rename π f) id) := by
  refine .same fun n _ => ?_
  cases n.child? 2 with
  | none => exact .pure rfl
  | some arg =>
    refine .bind (follows_value hp f arg) fun v => ?_
    rw [asInt_rename]
    refine .same fun i _ => ?_
    split_ifs
    · exact .pure rfl
    · exact .throw _

lemma follows_make (hp : p.Loaded) (f : FrameId) (id : NodeId) :
    Op.Follows π (p.make f id) (p.make (rename π f) id) := by
  refine .same fun t _ => .bind (.look (follows_madeSize hp f id)) fun size => ?_
  refine .same fun ty _ => ?_
  cases ty with
  | slice elem =>
    refine .same fun _ _ => .bind (.times _ (follows_zero _ _)) fun zeros => ?_
    exact follows_newSlice_setOwn f id zeros
  | chan elem => exact .bind (Op.follows_newChannel size) fun c => follows_setOwn f id (.chan c)
  | map key value =>
    exact .bind (Op.follows_newDict {}) fun d => follows_setOwn f id (.map d)
  | _ => exact .throw _

lemma follows_len (hp : p.Loaded) (f : FrameId) (id : NodeId) :
    Op.Follows π (p.len f id) (p.len (rename π f) id) := by
  refine .bind (.look (follows_operand hp f id 1)) fun v => ?_
  exact .bind (.look (Look.follows_length v)) fun n => follows_setOwn f id (.ofNat n)

lemma follows_closeChannel (hp : p.Loaded) (f : FrameId) (id : NodeId) :
    Op.Follows π (p.close f id) (p.close (rename π f) id) := by
  refine .bind (.look (follows_operand hp f id 1)) fun v => ?_
  exact .bind (.lift (asChannel_rename π _ v)) fun c => Op.follows_close c

lemma follows_sleep (hp : p.Loaded) (f : FrameId) (id : NodeId) :
    Look.Follows π (p.sleep f id) (p.sleep (rename π f) id) := by
  refine .bind (follows_operand hp f id 1) fun v => ?_
  rw [asInt_rename]
  refine .same fun i _ => .pure ?_
  split_ifs <;> rfl

lemma follows_send (hp : p.Loaded) (f : FrameId) (id : NodeId) :
    Look.Follows π (p.send f id) (p.send (rename π f) id) := by
  refine .bind (follows_operand hp f id 0) fun c => .bind (follows_operand hp f id 1) fun v => ?_
  exact .bind (.lift (asChannel_rename π _ c)) fun c => .pure rfl

lemma follows_receive (hp : p.Loaded) (f : FrameId) (id : NodeId) :
    Look.Follows π (p.receive f id) (p.receive (rename π f) id) := by
  refine .bind (follows_operand hp f id 0) fun c => ?_
  exact .bind (.lift (asChannel_rename π _ c)) fun c => .pure rfl

lemma follows_storeReceived (f : FrameId) (id : NodeId) (v : Option Value) :
    Op.Follows π (p.storeReceived f id v) (p.storeReceived (rename π f) id (rename π v)) := by
  cases v with
  | some v => exact follows_setOwn f id v
  | none => exact follows_setZero f id

/-! ### Results and cases -/

lemma follows_ret (hp : p.Loaded) (f : FrameId) (id : NodeId) :
    Op.Follows π (p.ret f id) (p.ret (rename π f) id) :=
  .same fun _ _ => .bind (.look (follows_allValues hp f _)) fun vs => Op.follows_setSlots f 0 vs _

lemma follows_caseMatches (hπ : π.Injective) (hp : p.Loaded) (f : FrameId) (id : NodeId) :
    Look.Follows π (p.caseMatches f id) (p.caseMatches (rename π f) id) := by
  refine .same fun n _ => ?_
  cases n.child? 0 with
  | none => exact .pure rfl
  | some expr =>
    refine .same fun switch _ => .bind (follows_operand hp f switch 0) fun governing => ?_
    exact .bind (follows_value hp f expr) fun v => .pure (beq_rename hπ governing v)

lemma follows_caseTest (hπ : π.Injective) (hp : p.Loaded) (f : FrameId) (id : NodeId) :
    Op.Follows π (p.caseTest f id) (p.caseTest (rename π f) id) :=
  .bind (.look (follows_caseMatches hπ hp f id)) fun b => follows_setBool f id b

/-! ### Loops -/

lemma follows_visit (f : FrameId) (id : NodeId) (key value next : Value) :
    Op.Follows π (p.visit f id key value next)
      (p.visit (rename π f) id (rename π key) (rename π value) (rename π next)) := by
  refine .same fun slot _ => .same fun c _ => ?_
  refine .bind (follows_assignTo f c key) fun _ => .same fun d _ => ?_
  refine .bind (follows_assignTo f d value) fun _ => ?_
  refine .bind (.modify (fun s => s.grows_setSlot _ _ _)
    fun s t hst => hst.setSlot f (slot + 1) next) fun _ => ?_
  exact follows_setBool f id true

lemma follows_finish (f : FrameId) (id : NodeId) :
    Op.Follows π (p.finish f id) (p.finish (rename π f) id) := by
  refine .same fun slot _ => ?_
  refine .bind (.modify (fun s => s.grows_setSlot _ _ _)
    fun s t hst => hst.setSlot f (slot + 1) .nil) fun _ => ?_
  exact follows_setBool f id false

lemma follows_visitReceived (f : FrameId) (id : NodeId) (next : Value) (v : Option Value) :
    Op.Follows π (p.visitReceived f id next v)
      (p.visitReceived (rename π f) id (rename π next) (rename π v)) := by
  cases v with
  | some v => exact follows_visit f id v .nil next
  | none => exact follows_finish f id

lemma follows_iterated (f : FrameId) (id : NodeId) (iteration : Iteration) :
    Op.Follows π
      (match iteration with
        | .visit key value next => do p.visit f id key value next; return Pending.done
        | .finished => do p.finish f id; return Pending.done
        | .await c next => return Pending.receive c (.visit next))
      (match rename π iteration with
        | .visit key value next => do p.visit (rename π f) id key value next; return Pending.done
        | .finished => do p.finish (rename π f) id; return Pending.done
        | .await c next => return Pending.receive c (.visit next)) := by
  cases iteration with
  | visit key value next => exact .bind (follows_visit f id key value next) fun _ => .pure rfl
  | finished => exact .bind (follows_finish f id) fun _ => .pure rfl
  | await c next => exact .pure rfl

/-- What a range node does at a position. -/
lemma follows_rangeAt (f : FrameId) (id : NodeId) (collection position : Value) :
    Op.Follows π
      (do
        let iteration ← match collection with
          | .map d => Op.iterateMap d position
          | v => do Look.iterate v (← sequencePosition position)
        match iteration with
        | .visit key value next => do p.visit f id key value next; return Pending.done
        | .finished => do p.finish f id; return Pending.done
        | .await c next => return Pending.receive c (.visit next))
      (do
        let iteration ← match rename π collection with
          | .map d => Op.iterateMap d (rename π position)
          | v => do Look.iterate v (← sequencePosition (rename π position))
        match iteration with
        | .visit key value next => do p.visit (rename π f) id key value next; return Pending.done
        | .finished => do p.finish (rename π f) id; return Pending.done
        | .await c next => return Pending.receive c (.visit next)) := by
  have hother : ∀ v : Value, Op.Follows π
      (do
        let iteration ← Look.iterate v (← sequencePosition position)
        match iteration with
        | .visit key value next => do p.visit f id key value next; return Pending.done
        | .finished => do p.finish f id; return Pending.done
        | .await c next => return Pending.receive c (.visit next))
      (do
        let iteration ← Look.iterate (rename π v) (← sequencePosition (rename π position))
        match iteration with
        | .visit key value next => do p.visit (rename π f) id key value next; return Pending.done
        | .finished => do p.finish (rename π f) id; return Pending.done
        | .await c next => return Pending.receive c (.visit next)) := by
    intro v
    rw [sequencePosition_rename]
    refine .same fun i _ => .bind (.look (Look.follows_iterate v i)) fun iteration => ?_
    exact follows_iterated f id iteration
  cases collection with
  | map d =>
    refine .bind (Op.follows_iterateMap d position) fun iteration => ?_
    exact follows_iterated f id iteration
  | _ => exact hother _

lemma follows_range (hp : p.Loaded) (f : FrameId) (id : NodeId) :
    Op.Follows π (p.range f id) (p.range (rename π f) id) := by
  refine .same fun slot _ => .same fun _ _ => .same fun _ _ => ?_
  refine .bind (.look (follows_operand hp f id 2)) fun collection => ?_
  have hrest := fun position => follows_rangeAt (π := π) (p := p) f id collection position
  refine .inspect (fun s => ?_) fun s t hst => ?_
  · dsimp only
    cases s.slot? f (slot + 1) with
    | none => exact .refl s
    | some v => exact (hrest v).grows s
  · rw [hst.slot?]
    cases s.slot? f (slot + 1) with
    | none => exact .throw _
    | some v => exact hrest v

lemma follows_println (hp : p.Loaded) (f : FrameId) (id : NodeId) :
    Op.Follows π (p.println f id) (p.println (rename π f) id) := by
  refine .same fun n _ => .bind (.look (follows_allValues hp f _)) fun vs => ?_
  refine .inspect (fun s => .refl s) fun s t hst => ?_
  rw [hst.renderLine]
  exact Op.follows_writeLine _

/-! ### Calls -/

lemma rename_lexicalParent (hg : rename π globalFrame = globalFrame) (env : Option FrameId) :
    lexicalParent (rename π env) = rename π (lexicalParent env) := by
  cases env with
  | none => exact hg.symm
  | some f => rfl

lemma follows_setParameters (frame : FrameId) (params : List Nat) (args : List Value)
    (missing : Stop) :
    Op.Follows π ((params.zip args).forM fun (slot, v) => Op.setSlot frame slot v missing)
      ((params.zip (rename π args)).forM fun (slot, v) =>
        Op.setSlot (rename π frame) slot v missing) := by
  induction params generalizing args with
  | nil => exact .done
  | cons slot params ih =>
    cases args with
    | nil => exact .done
    | cons v args => exact .bind (Op.follows_setSlot frame slot v missing) fun _ => ih args

lemma follows_activate (decl : NodeId) (parent : FrameId) (receiver : Option Value)
    (args : List Value) :
    Op.Follows π (p.activate decl parent receiver args)
      (p.activate decl (rename π parent) (rename π receiver) (rename π args)) := by
  refine .same fun d _ => ?_
  dsimp only
  rw [rename_list π args, List.length_map, ← rename_list]
  refine .ite Iff.rfl (.throw _) (.bind (Op.follows_newFrame _ (some parent)) fun frame => ?_)
  have hp : Op.Follows π
      (do (d.params.zip args).forM fun (slot, v) =>
            Op.setSlot frame slot v (.malformed decl .parameterBeyondFrame)
          return Callee.declared ⟨frame, decl, d.entry, d.results⟩)
      (do (d.params.zip (rename π args)).forM fun (slot, v) =>
            Op.setSlot (rename π frame) slot v (.malformed decl .parameterBeyondFrame)
          return Callee.declared ⟨rename π frame, decl, d.entry, d.results⟩) :=
    .bind (follows_setParameters frame d.params args _) fun _ => .pure rfl
  cases d.receiver with
  | none => cases receiver <;> exact hp
  | some slot =>
    cases receiver with
    | none => exact hp
    | some v => exact .bind (Op.follows_setSlot frame slot v _) fun _ => hp

lemma follows_bindValues (hg : rename π globalFrame = globalFrame) (callee : Value)
    (receiver : Option Value) (args : List Value) :
    Op.Follows π (p.bindValues callee receiver args)
      (p.bindValues (rename π callee) (rename π receiver) (rename π args)) := by
  cases callee with
  | func decl env =>
    have h := follows_activate (π := π) (p := p) decl (lexicalParent env) receiver args
    rw [← rename_lexicalParent hg] at h
    exact h
  | native name =>
    refine .pure ?_
    cases receiver <;> rfl
  | _ => exact .throw _

lemma follows_receiverValue (hp : p.Loaded) (f : FrameId) (part : Option (NodeId × List Nat)) :
    Look.Follows π (p.receiverValue f part) (p.receiverValue (rename π f) part) := by
  cases part with
  | none => exact .pure rfl
  | some part =>
    rw [receiverValue_some, receiverValue_some]
    refine .bind (follows_value hp f part.1) fun v => ?_
    exact .bind (Look.follows_follow _ v part.2) fun w => .pure rfl

lemma follows_bindingOf (hg : rename π globalFrame = globalFrame) (hp : p.Loaded) (f : FrameId)
    (id : NodeId) (op : String) :
    Look.Follows π (p.bindingOf f id op) (p.bindingOf (rename π f) id op) := by
  refine .same fun n _ => .same fun callee _ => .same fun part _ => ?_
  refine .bind (follows_value hp f callee) fun v => ?_
  cases v with
  | func decl env =>
    refine .bind (follows_receiverValue hp f part) fun receiver => ?_
    refine .bind (follows_allValues hp f _) fun args => .pure ?_
    have hparent : (if n.isFork then rename π f else lexicalParent (rename π env)) =
        rename π (if n.isFork then f else lexicalParent env) := by
      rw [apply_ite (rename π), rename_lexicalParent hg]
    exact congrArg (Binding.declared decl · _ _) hparent
  | native name =>
    refine .bind (follows_receiverValue hp f part) fun receiver => ?_
    refine .bind (follows_allValues hp f _) fun args => .pure ?_
    cases receiver <;> rfl
  | _ => exact .throw _

lemma follows_complete (binding : Binding) :
    Op.Follows π (p.complete binding) (p.complete (rename π binding)) := by
  cases binding with
  | declared decl parent receiver args => exact follows_activate decl parent receiver args
  | native name args => exact .pure rfl

lemma follows_bindCall (hg : rename π globalFrame = globalFrame) (hp : p.Loaded) (f : FrameId)
    (id : NodeId) (op : String) :
    Op.Follows π (p.bindCall f id op) (p.bindCall (rename π f) id op) := by
  rw [bindCall_eq, bindCall_eq]
  exact .bind (.look (follows_bindingOf hg hp f id op)) follows_complete

lemma follows_storeResults (f : FrameId) (id : NodeId) (vs : List Value) :
    Op.Follows π (p.storeResults f id vs) (p.storeResults (rename π f) id (rename π vs)) := by
  refine .same fun n _ => ?_
  cases n.slot with
  | none => exact .done
  | some slot =>
    dsimp only
    rw [rename_list, ← List.map_take]
    exact Op.follows_setSlots f slot (vs.take n.width) _

lemma follows_results (a : Activation) :
    Look.Follows π (results a) (results (rename π a)) := by
  refine .read fun s t hst => ?_
  have h := hst.range? a.frame 0 a.results
  simp only [rename] at h ⊢
  rw [h]
  cases s.range? a.frame 0 a.results <;> rfl

/-! ### All operations -/

lemma follows_completely {x y : Op Unit} (h : Op.Follows π x y) :
    Op.Follows π (completely x) (completely y) := .bind h fun _ => .pure rfl

/-- No operation depends on which names things have. -/
theorem follows_operation (hπ : π.Injective) (hg : rename π globalFrame = globalFrame)
    (hp : p.Loaded) (f : FrameId) (id : NodeId) (k : Kind) :
    Op.Follows π (p.operation f id k) (p.operation (rename π f) id k) := by
  cases k with
  | binary op => exact follows_completely (follows_binary hπ hp f id op)
  | neg => exact follows_completely (follows_unary hp f id (negate_rename π))
  | inc => exact follows_completely (follows_unary hp f id (increment_rename π))
  | dec => exact follows_completely (follows_unary hp f id (decrement_rename π))
  | not => exact follows_completely (follows_lnot hp f id)
  | land => exact follows_completely (follows_land hp f id)
  | lor => exact follows_completely (follows_lor hp f id)
  | assign => exact follows_completely (follows_assign hp f id)
  | assignSpread => exact follows_completely (follows_assignSpread f id)
  | assignZero => exact follows_completely (follows_assignZero f id)
  | assignPointer => exact follows_completely (follows_assignPointer hp f id)
  | assignMap => exact follows_completely (follows_assignMap hp f id)
  | arrayLit => exact follows_completely (follows_arrayLit hp f id)
  | mapLit => exact follows_completely (follows_mapLit hπ hp f id)
  | compositeLit => exact follows_completely (follows_compositeLit hp f id)
  | keyedLit => exact follows_completely (follows_keyedLit hp f id)
  | index => exact follows_completely (follows_index hp f id)
  | indexAddress => exact follows_completely (follows_indexAddress hp f id)
  | indexPath => exact follows_completely (follows_indexPath hp f id)
  | indexMap => exact follows_completely (follows_indexMap hp f id)
  | make => exact follows_completely (follows_make hp f id)
  | receive => exact .look (follows_receive hp f id)
  | send => exact .look (follows_send hp f id)
  | close => exact follows_completely (follows_closeChannel hp f id)
  | len => exact follows_completely (follows_len hp f id)
  | sleep => exact .look (follows_sleep hp f id)
  | println => exact follows_completely (follows_println hp f id)
  | range => exact follows_range hp f id
  | ret => exact follows_completely (follows_ret hp f id)
  | caseTest => exact follows_completely (follows_caseTest hπ hp f id)
  | call => exact .bind (follows_bindCall hg hp f id _) fun _ => .pure rfl
  | spawn => exact .bind (follows_bindCall hg hp f id _) fun _ => .pure rfl
  | funcLit => exact follows_completely (follows_funcLit f id)
  | _ => exact .pure rfl

lemma follows_perform (hπ : π.Injective) (hg : rename π globalFrame = globalFrame)
    (hp : p.Loaded) (f : FrameId) (id : NodeId) :
    Op.Follows π (p.perform f id) (p.perform (rename π f) id) :=
  .same fun n _ => follows_operation hπ hg hp f id n.kind

end Program

end Flowgraph
