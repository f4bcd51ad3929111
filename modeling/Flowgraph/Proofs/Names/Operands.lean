import Flowgraph.Proofs.Names.Follow
import Flowgraph.Proofs.Scope.Layout

/-!
# Operands of renamed stores

Readers of values, looks at the store, zero values, operands and destinations: each does the same
to a renamed store as to the store itself.
-/

namespace Flowgraph

open Named

variable {π : Renaming} {p : Program}

/-! ### Readers -/

section Readers

variable (π)

lemma asBool_rename (op : String) (v : Value) : (rename π v).asBool op = v.asBool op := by
  cases v <;> rfl

lemma asInt_rename (op : String) (v : Value) : (rename π v).asInt op = v.asInt op := by
  cases v <;> rfl

lemma asBlock_rename (op : String) (v : Value) :
    (rename π v).asBlock op = rename π (v.asBlock op) := by
  cases v <;> rfl

lemma asDict_rename (op : String) (v : Value) :
    (rename π v).asDict op = rename π (v.asDict op) := by
  cases v <;> rfl

lemma asChannel_rename (op : String) (v : Value) :
    (rename π v).asChannel op = rename π (v.asChannel op) := by
  cases v <;> rfl

lemma sequencePosition_rename (v : Value) :
    sequencePosition (rename π v) = sequencePosition v := by
  cases v <;> rfl

lemma negate_rename (v : Value) : (rename π v).negate = rename π v.negate := by
  cases v <;> rfl

lemma increment_rename (v : Value) : (rename π v).increment = rename π v.increment := by
  cases v <;> rfl

lemma decrement_rename (v : Value) : (rename π v).decrement = rename π v.decrement := by
  cases v <;> rfl

end Readers

/-! ### Looks -/

namespace Look

lemma follows_element (b : BlockId) (i : Int64) :
    Follows π (element b i) (element (rename π b) i) := by
  intro s t hst
  simp only [element, hst.block, rename_array, Array.size_map]
  cases checkIndex i (s.block b).size with
  | error e => rfl
  | ok n =>
    refine congrArg Except.ok ?_
    simp only [Array.getD_eq_getD_getElem?, Array.getElem?_map]
    cases (s.block b)[n]? <;> rfl

lemma follows_follow (op : String) (v : Value) (path : List Nat) :
    Follows π (follow op v path) (follow op (rename π v) path) := by
  induction path generalizing v with
  | nil => exact .pure rfl
  | cons i path ih =>
    refine .bind (.lift (asBlock_rename π op v)) fun b => ?_
    exact .bind (follows_element b _) fun w => ih w

lemma follows_index (collection : Value) (i : Int64) :
    Follows π (index collection i) (index (rename π collection) i) := by
  have hblock : ∀ v : Value, Follows π
      (do let b ← v.asBlock "index"; element b i)
      (do let b ← (rename π v).asBlock "index"; element b i) := fun v =>
    .bind (.lift (asBlock_rename π "index" v)) fun b => follows_element b i
  cases collection with
  | str t => exact .same fun n _ => .pure rfl
  | _ => exact hblock _

lemma follows_entry (m k : Value) :
    Follows π (entry m k) (entry (rename π m) (rename π k)) := by
  refine .bind (.lift (asDict_rename π _ m)) fun d => ?_
  cases d with
  | none => exact .pure rfl
  | some d =>
    refine .read fun s t hst => ?_
    exact congrArg Except.ok (by rw [hst.dict, rename_get? hst.injective])

lemma follows_length (v : Value) : Follows π (length v) (length (rename π v)) := by
  cases v with
  | slice b => exact .read fun s t hst => congrArg Except.ok (hst.block_size b)
  | struct b => exact .read fun s t hst => congrArg Except.ok (hst.block_size b)
  | map d =>
    refine .read fun s t hst => congrArg Except.ok ?_
    rw [hst.dict]
    exact rename_dict_size _
  | chan c =>
    refine .read fun s t hst => congrArg Except.ok ?_
    rw [hst.channel]
    exact List.length_map ..
  | _ => exact fun _ _ _ => rfl

end Look

/-! ### Loops -/

instance : Named Iteration where
  rename π
    | .visit key value next => .visit (rename π key) (rename π value) (rename π next)
    | .finished => .finished
    | .await c next => .await (rename π c) (rename π next)
  Mentions i T k := match i with
    | .visit key value next => Mentions key T k ∨ Mentions value T k ∨ Mentions next T k
    | .finished => False
    | .await c next => Mentions c T k ∨ Mentions next T k
  rename_id i := by cases i <;> simp
  rename_rename σ π i := by cases i <;> simp
  rename_eq_iff ρ σ i := by cases i <;> simp [rename_eq_iff, or_imp, forall_and]

lemma Look.follows_iterate (collection : Value) (position : Nat) :
    Look.Follows π (iterate collection position) (iterate (rename π collection) position) := by
  cases collection with
  | slice b =>
    refine .read fun s t hst => ?_
    rw [hst.target?]
    cases s.target? b position <;> rfl
  | str text =>
    simp only [iterate, rename_str]
    cases Text.charAt? text position with
    | none => exact .pure rfl
    | some c => exact .pure rfl
  | int n =>
    simp only [iterate, rename_int]
    split_ifs
    · exact .pure rfl
    · exact .pure rfl
  | _ => exact fun _ _ _ => rfl

lemma rename_firstPresent? (hπ : π.Injective) (d : Dict) (keys : List Value) :
    (rename π d).firstPresent? (rename π keys) = rename π (d.firstPresent? keys) := by
  induction keys with
  | nil => rfl
  | cons k ks ih =>
    rw [rename_cons, Dict.firstPresent?, Dict.firstPresent?, rename_get? hπ]
    cases d.get? k with
    | some v => rfl
    | none =>
      simp only [rename_none, ih]
      cases d.firstPresent? ks <;> rfl

namespace Op

lemma follows_setElement (b : BlockId) (i : Int64) (v : Value) :
    Follows π (setElement b i v) (setElement (rename π b) i (rename π v)) := by
  refine .bind (.look fun s t hst => ?_) fun n => ?_
  · rw [hst.block_size, rename_except fun _ _ => rfl]
  · exact .modify (fun s => s.grows_setElement b n v) fun s t hst => hst.setElement b n v

lemma follows_close (c : ChannelId) : Follows π (close c) (close (rename π c)) := by
  refine .inspect (fun s => ?_) fun s t hst => ?_
  · split_ifs
    · exact .refl s
    · exact s.grows_updateChannel _ _
  · refine .ite (by rw [hst.channel]; rfl) (.throw _) (.modify ?_ ?_)
    · exact fun s => s.grows_updateChannel _ _
    · exact fun s t hst => hst.updateChannel c fun ch => rfl

lemma follows_cursor_start (d : DictId) :
    Follows π (cursor.start d) (cursor.start (rename π d)) := by
  have hrest : ∀ keys : Array Value, Follows π
      (do let keys ← newSlice keys; create fun s => s.newBlock #[.int 0, keys])
      (do let keys ← newSlice (rename π keys); create fun s => s.newBlock #[.int 0, keys]) :=
    fun keys => .bind (follows_newSlice keys) fun v => by
      have hblock := follows_newBlock (π := π) #[.int 0, v]
      simpa [rename_array] using hblock
  refine .inspect (fun s => (hrest _).grows s) fun s t hst => ?_
  rw [hst.dict, rename_keys]
  have h := hrest (s.dict d).keys.toArray
  simpa [rename_array, rename_list] using h

lemma follows_cursor (d : DictId) (position : Value) :
    Follows π (cursor d position) (cursor (rename π d) (rename π position)) := by
  cases position with
  | struct b => exact .pure rfl
  | nil => exact follows_cursor_start d
  | int i =>
    have hint : ∀ e, cursor e (.int i) =
        if i = 0 then cursor.start e else throw ((Value.int i).mismatch "range" "map cursor") :=
      fun e => by
        by_cases hi : i = 0
        · rw [if_pos hi, hi]
          rfl
        · rw [if_neg hi, cursor]
          · exact fun b => Value.noConfusion
          · exact Value.noConfusion
          · exact fun he => hi (Value.int.inj he)
    rw [rename_int, hint, hint]
    exact .ite Iff.rfl (follows_cursor_start d) (.throw _)
  | _ => exact .throw _

lemma follows_iterateMap (d : DictId) (position : Value) :
    Follows π (iterateMap d position) (iterateMap (rename π d) (rename π position)) := by
  refine .bind (follows_cursor d position) fun cursor => ?_
  refine .bind (.look (Look.follows_element cursor 1)) fun keys => ?_
  refine .bind (.lift (asBlock_rename π "range" keys)) fun keys => ?_
  refine .bind (.look (Look.follows_element cursor 0)) fun next => ?_
  rw [asInt_rename]
  refine .same fun next _ => ?_
  refine .ite Iff.rfl (.pure rfl) ?_
  have hfound : ∀ k v n, Follows π
      (do modify fun s => s.setElement cursor 0 (.ofNat n)
          return Iteration.visit k v (.struct cursor))
      (do modify fun s => s.setElement (rename π cursor) 0 (.ofNat n)
          return Iteration.visit (rename π k) (rename π v) (.struct (rename π cursor))) :=
    fun k v n => .bind (.modify (fun s => s.grows_setElement _ _ _)
      fun s t hst => hst.setElement cursor 0 (.ofNat n)) fun _ => .pure rfl
  refine .inspect (fun s => ?_) fun s t hst => ?_
  · cases (s.dict d).firstPresent? ((s.block keys).toList.drop next.toInt.toNat) with
    | none => exact .refl s
    | some found => exact (hfound _ _ _).grows s
  · have hkeys : (t.block (rename π keys)).toList.drop next.toInt.toNat
        = rename π ((s.block keys).toList.drop next.toInt.toNat) := by
      rw [hst.block]
      simp [rename_array, rename_list]
    rw [hst.dict, hkeys, rename_firstPresent? hst.injective]
    cases (s.dict d).firstPresent? ((s.block keys).toList.drop next.toInt.toNat) with
    | none => exact .pure rfl
    | some found => exact hfound _ _ _

end Op

/-! ### Zero values -/

lemma follows_zeroAt (g : Graph) (depth : Nat) (t : TypeId) :
    Op.Follows π (g.zeroAt depth t) (g.zeroAt depth t) := by
  induction depth generalizing t with
  | zero => exact .throw _
  | succ depth ih =>
    simp only [Graph.zeroAt]
    refine .same fun ty _ => ?_
    cases ty with
    | array elem length =>
      refine .same fun _ _ => .bind (.times length (ih elem)) fun elements => ?_
      have h := Op.follows_newSlice (π := π) elements.toArray
      simpa [rename_array, rename_list] using h
    | struct fields =>
      refine .bind (.mapM _ fun t _ => ih t) fun elements => ?_
      have h := Op.follows_newStruct (π := π) elements.toArray
      simpa [rename_array, rename_list] using h
    | _ => exact .pure rfl

lemma follows_zero (g : Graph) (t : Option TypeId) : Op.Follows π (g.zero t) (g.zero t) := by
  cases t with
  | none => exact .pure rfl
  | some t => exact follows_zeroAt g _ t

namespace Program

/-! ### Operands -/

lemma follows_frameAt (f : FrameId) (level : Nat) (id : NodeId) :
    Look.Follows π (frameAt f level id) (frameAt (rename π f) level id) := by
  intro s t hst
  simp only [frameAt, hst.ancestor?]
  cases s.ancestor? f level <;> rfl

/-- Constants are the same whatever names mean. -/
lemma Loaded.rename_constant (hp : p.Loaded) {id : NodeId} {n : Node} (hn : p.node id = .ok n)
    (π : Renaming) :
    (p.constant? id).getD .nil = rename π ((p.constant? id).getD .nil) := by
  have h := hp id n hn
  unfold Node.constant at h
  by_cases hk : n.kind = .funcDecl
  · rw [if_pos hk] at h
    rw [← Except.ok.inj h]
    rfl
  · rw [if_neg hk] at h
    split at h
    · rw [← Except.ok.inj h]
      simp
    · rw [← Except.ok.inj h]
      rfl
    · split_ifs at h
      rw [← Except.ok.inj h]
      rfl
    · rw [← Except.ok.inj h]
      split_ifs <;> rfl

/-- Constants mention no names. -/
lemma Loaded.not_mentions_constant (hp : p.Loaded) {id : NodeId} {n : Node} (hn : p.node id = .ok n)
    (T : Table) (k : Nat) : ¬Mentions ((p.constant? id).getD .nil) T k := by
  intro hm
  have hsame := hp.rename_constant hn fun _ k => k + 1
  rw [← rename_id ((p.constant? id).getD .nil), rename_rename, rename_eq_iff] at hsame
  exact absurd (hsame _ _ hm) (Nat.succ_ne_self _).symm

lemma follows_value (hp : p.Loaded) (f : FrameId) (id : NodeId) :
    Look.Follows π (p.value f id) (p.value (rename π f) id) := by
  refine .same fun n hn => ?_
  have hconst := hp.rename_constant hn π
  by_cases hk : n.kind = .basicLit ∨ n.kind = .funcDecl
  · simp only [if_pos hk]
    exact .pure hconst
  · simp only [if_neg hk]
    refine .bind (follows_frameAt f n.level id) fun owner => ?_
    cases n.slot with
    | none => exact .pure hconst
    | some slot =>
      refine .read fun s t hst => ?_
      rw [hst.slot?]
      cases s.slot? owner slot <;> rfl

lemma follows_slotsAt (f : FrameId) (level start count : Nat) (id : NodeId) :
    Look.Follows π (slotsAt f level start count id)
      (slotsAt (rename π f) level start count id) := by
  refine .bind (follows_frameAt f level id) fun owner => .read fun s t hst => ?_
  rw [hst.range?]
  cases s.range? owner start count <;> rfl

lemma follows_values (hp : p.Loaded) (f : FrameId) (id : NodeId) :
    Look.Follows π (p.values f id) (p.values (rename π f) id) := by
  have hone : Look.Follows π (do return [← p.value f id])
      (do return [← p.value (rename π f) id]) :=
    .bind (follows_value hp f id) fun _ => .pure rfl
  refine .same fun n _ => ?_
  cases n.slot with
  | none => exact hone
  | some slot =>
    by_cases hw : 1 < n.width
    · simp only [if_pos hw]
      exact follows_slotsAt f _ _ _ id
    · simp only [if_neg hw]
      exact hone

lemma follows_allValues (hp : p.Loaded) (f : FrameId) (ids : List NodeId) :
    Look.Follows π (p.allValues f ids) (p.allValues (rename π f) ids) :=
  .bind (.mapM ids fun id _ => follows_values hp f id) fun _ =>
    .pure List.map_flatten.symm

lemma follows_operand (hp : p.Loaded) (f : FrameId) (id : NodeId) (i : Nat) :
    Look.Follows π (p.operand f id i) (p.operand (rename π f) id i) :=
  .same fun c _ => follows_value hp f c

lemma follows_successor (hp : p.Loaded) (f : FrameId) (id : NodeId) :
    Look.Follows π (p.successor f id) (p.successor (rename π f) id) := by
  refine .same fun n _ => ?_
  cases n.otherwise with
  | none => exact .pure (by cases n.next <;> rfl)
  | some whenFalse =>
    refine .bind (follows_value hp f id) fun v => ?_
    rw [asBool_rename]
    refine .same fun b _ => ?_
    cases b with
    | true => exact .pure (by cases n.next <;> rfl)
    | false => exact .pure rfl

/-! ### Destinations -/

lemma follows_setOwn (f : FrameId) (id : NodeId) (v : Value) :
    Op.Follows π (p.setOwn f id v) (p.setOwn (rename π f) id (rename π v)) := by
  refine .same fun n _ => ?_
  cases n.slot with
  | none => exact .throw _
  | some slot => exact Op.follows_setSlot f slot v _

lemma follows_assignTo (f : FrameId) (id : NodeId) (v : Value) :
    Op.Follows π (p.assignTo f id v) (p.assignTo (rename π f) id (rename π v)) := by
  refine .same fun n _ => ?_
  cases n.slot with
  | none => exact .done
  | some slot =>
    refine .bind (.look (follows_frameAt f n.level id)) fun owner => ?_
    exact Op.follows_setSlot owner slot v _

lemma follows_assignAll (f : FrameId) (ids : List NodeId) (vs : List Value) :
    Op.Follows π (p.assignAll f ids vs) (p.assignAll (rename π f) ids (rename π vs)) := by
  induction ids generalizing vs with
  | nil => exact .done
  | cons id ids ih =>
    cases vs with
    | nil => exact .done
    | cons v vs => exact .bind (follows_assignTo f id v) fun _ => ih vs

end Program

end Flowgraph
