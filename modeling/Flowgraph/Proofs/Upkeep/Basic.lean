import Mathlib.Tactic.Common
import Flowgraph.Proofs.Regime

/-!
# Upkeep below the level of operations

Readers of values, looks at the store, changes to blocks, dictionaries and channels, and operands:
what each of them guarantees under a regime.
-/

namespace Flowgraph

variable {I : Store → Prop} {V : Value → Prop} {E : Stop → Prop}

/-! ### Plain results -/

section Faults

variable (hE : ∀ f, (Stop.fault f).isAddress = false → E (.fault f))

include hE

lemma ends_asBool (op : String) (v : Value) : Ends E (fun _ => True) (v.asBool op) := by
  cases v <;> first | exact trivial | exact hE _ rfl

lemma ends_asInt (op : String) (v : Value) : Ends E (fun _ => True) (v.asInt op) := by
  cases v <;> first | exact trivial | exact hE _ rfl

lemma ends_asBlock (op : String) (v : Value) : Ends E (fun _ => True) (v.asBlock op) := by
  cases v <;> first | exact trivial | exact hE _ rfl

lemma ends_asDict (op : String) (v : Value) : Ends E (fun _ => True) (v.asDict op) := by
  cases v <;> first | exact trivial | exact hE _ rfl

lemma ends_asChannel (op : String) (v : Value) : Ends E (fun _ => True) (v.asChannel op) := by
  cases v <;> first | exact trivial | exact hE _ rfl

lemma ends_checkIndex (i : Int64) (length : Nat) :
    Ends E (· < length) (checkIndex i length) := by
  simp only [checkIndex]
  split_ifs with h
  · rw [ends_ok]
    omega
  · exact hE _ rfl

lemma ends_compared (op : BinaryOp) (o : Ordering) :
    Ends E (fun v => v.isPlain = true) (op.compared o) := by
  simp only [BinaryOp.compared]
  cases op.accepts o with
  | some b => exact rfl
  | none => exact hE _ rfl

lemma ends_onInts (op : BinaryOp) (a b : Int64) :
    Ends E (fun v => v.isPlain = true) (op.onInts a b) := by
  simp only [BinaryOp.onInts]
  split
  case h_4 | h_5 => split_ifs <;> first | exact hE _ rfl | exact rfl
  case h_8 => exact ends_compared hE op _
  all_goals exact rfl

lemma ends_onFloats (op : BinaryOp) (a b : Float) :
    Ends E (fun v => v.isPlain = true) (op.onFloats a b) := by
  simp only [BinaryOp.onFloats]
  split
  case h_5 | h_6 | h_7 => exact hE _ rfl
  case h_8 =>
    cases BinaryOp.orderFloats a b with
    | some o => exact ends_compared hE op o
    | none => exact rfl
  all_goals exact rfl

lemma ends_onTexts (op : BinaryOp) (a b : String) :
    Ends E (fun v => v.isPlain = true) (op.onTexts a b) := by
  simp only [BinaryOp.onTexts]
  split
  case h_1 => exact rfl
  case h_8 => exact ends_compared hE op _
  all_goals exact hE _ rfl

/-- No operator makes a function or a pointer. -/
lemma ends_evaluate (op : BinaryOp) (left right : Value) :
    Ends E (fun v => v.isPlain = true) (op.evaluate left right) := by
  simp only [BinaryOp.evaluate]
  split
  case h_1 | h_2 => exact rfl
  case h_3 =>
    split
    · exact ends_onInts hE op _ _
    · exact ends_onFloats hE op _ _
    · exact ends_onTexts hE op _ _
    all_goals exact hE _ rfl

end Faults

section Results

variable (hE : ∀ e, e.isAddress = false → E e)

include hE

lemma ends_checkSize (size limit : Nat) : Ends E (fun _ => True) (checkSize size limit) := by
  simp only [checkSize]
  split_ifs
  · exact trivial
  · exact hE _ rfl

lemma ends_checkCapacity (capacity : Nat) : Ends E (fun _ => True) (checkCapacity capacity) := by
  simp only [checkCapacity]
  split_ifs
  · exact ends_checkSize hE _ _
  · exact hE _ rfl

lemma ends_orStop {α : Type} (x : Except OutOfTable α) :
    Ends E (fun a => x = .ok a) (Graph.orStop x) := by
  cases x with
  | ok a => exact rfl
  | error e => exact hE _ rfl

lemma ends_node (p : Program) (id : NodeId) :
    Ends E (fun n => p.node id = .ok n) (p.node id) := by
  cases h : p.node id with
  | ok n => exact rfl
  | error e =>
    simp only [Program.node] at h
    cases hg : p.graph.node id with
    | ok n => rw [hg] at h; cases h
    | error e' => rw [hg] at h; cases h; exact hE _ rfl

lemma ends_child (p : Program) (id : NodeId) (i : Nat) :
    Ends E (fun c => ∃ n, p.node id = .ok n ∧ n.child? i = some c) (p.child id i) := by
  simp only [Program.child]
  refine (ends_node hE p id).bind fun n hn => ?_
  cases hc : n.child? i with
  | some c => exact ⟨n, hn, hc⟩
  | none => exact hE _ rfl

end Results

/-- A reader of blocks finds only blocks that are known. -/
lemma ends_asBlock_known (hE : ∀ f, (Stop.fault f).isAddress = false → E (.fault f))
    (op : String) {v : Value} (hv : V v) : Ends E (BlockId.Known V) (v.asBlock op) := by
  cases v with
  | slice b => exact .inl hv
  | struct b => exact .inr (.inl hv)
  | _ => exact hE _ rfl

/-! ### Dictionaries -/

lemma Dict.mem_insert {d : Dict} {k v : Value} {e : Value × Value}
    (he : e ∈ (d.insert k v).entries) : e ∈ d.entries ∨ (∃ e' ∈ d.entries, e = (e'.1, v)) ∨
      e = (k, v) := by
  obtain ⟨es⟩ := d
  simp only [insert] at he ⊢
  induction es with
  | nil => exact .inr (.inr (List.mem_singleton.mp he))
  | cons e' es ih =>
    rw [insertEntry] at he
    split_ifs at he with h
    · rcases List.mem_cons.mp he with rfl | he
      · exact .inr (.inl ⟨e', List.mem_cons_self, rfl⟩)
      · exact .inl (List.mem_cons_of_mem _ he)
    · rcases List.mem_cons.mp he with rfl | he
      · exact .inl List.mem_cons_self
      · rcases ih he with he | ⟨e'', he'', rfl⟩ | rfl
        · exact .inl (List.mem_cons_of_mem _ he)
        · exact .inr (.inl ⟨e'', List.mem_cons_of_mem _ he'', rfl⟩)
        · exact .inr (.inr rfl)

/-- Every key and every value of a dictionary has a property. -/
def Dict.Holds (V : Value → Prop) (d : Dict) : Prop := ∀ e ∈ d.entries, V e.1 ∧ V e.2

lemma Dict.holds_empty : ({} : Dict).Holds V := fun _ he => absurd he List.not_mem_nil

lemma Dict.Holds.insert {d : Dict} {k v : Value} (hd : d.Holds V) (hk : V k) (hv : V v) :
    (d.insert k v).Holds V := by
  intro e he
  rcases Dict.mem_insert he with he | ⟨e', he', rfl⟩ | rfl
  · exact hd e he
  · exact ⟨(hd e' he').1, hv⟩
  · exact ⟨hk, hv⟩

/-- A dictionary that is made by insertions is proper. -/
lemma Dict.proper_empty : ({} : Dict).Proper := .nil

lemma Dict.Proper.insert {d : Dict} (h : d.Proper) (k v : Value) : (d.insert k v).Proper := by
  obtain ⟨es⟩ := d
  simp only [Proper, Dict.insert] at h ⊢
  induction es with
  | nil => exact List.pairwise_singleton _ _
  | cons e es ih =>
    obtain ⟨he, hes⟩ := List.pairwise_cons.mp h
    rw [insertEntry]
    split_ifs with hk
    · exact List.pairwise_cons.mpr ⟨he, hes⟩
    · refine List.pairwise_cons.mpr ⟨fun e' he' => ?_, ih hes⟩
      rcases Dict.mem_insert (d := ⟨es⟩) he' with he' | ⟨e'', he'', rfl⟩ | rfl
      · exact he e' he'
      · exact he e'' he''
      · exact Bool.eq_false_iff.mpr hk

lemma Dict.Proper.erase {d : Dict} (h : d.Proper) (k : Value) : (d.erase k).Proper :=
  h.sublist List.eraseP_sublist

lemma Dict.Proper.foldl {pairs : List (Value × Value)} {d : Dict} (hd : d.Proper) :
    (pairs.foldl (fun (d : Dict) (k, v) => d.insert k v) d).Proper := by
  induction pairs generalizing d with
  | nil => exact hd
  | cons e pairs ih => exact ih (hd.insert e.1 e.2)

lemma Dict.Holds.foldl {pairs : List (Value × Value)} (h : ∀ e ∈ pairs, V e.1 ∧ V e.2)
    {d : Dict} (hd : d.Holds V) :
    (pairs.foldl (fun (d : Dict) (k, v) => d.insert k v) d).Holds V := by
  induction pairs generalizing d with
  | nil => exact hd
  | cons e pairs ih =>
    have he := h e List.mem_cons_self
    exact ih (fun e he => h e (List.mem_cons_of_mem _ he)) (hd.insert he.1 he.2)

/-! ### Looks and changes outside frames -/

/-- Every value that an iteration step hands on has a property. -/
def Iteration.Holds (V : Value → Prop) : Iteration → Prop
  | visit key value next => V key ∧ V value ∧ V next
  | finished => True
  | await _ next => V next

section Stores

variable (S : Steady I V) (hE : ∀ f, (Stop.fault f).isAddress = false → E (.fault f))

include S in
lemma Steady.ofNat (n : Nat) : V (.ofNat n) := S.plain _ rfl

include S hE

lemma gives_element {b : BlockId} (hb : b.Known V) (i : Int64) :
    Look.Gives I E (Look.element b i) V := by
  intro s hs
  refine (ends_checkIndex hE i (s.block b).size).bind fun n hn => ?_
  show V ((s.block b).getD n .nil)
  rw [Array.getD, dif_pos hn]
  exact S.element s b _ hs hb (Array.getElem_mem _)

lemma gives_follow (op : String) {v : Value} (hv : V v) (path : List Nat) :
    Look.Gives I E (Look.follow op v path) V := by
  induction path generalizing v with
  | nil => exact Look.Gives.pure hv
  | cons i path ih =>
    refine .bind (.lift (ends_asBlock_known hE op hv)) fun b hb => ?_
    exact .bind (gives_element S hE hb _) fun w hw => ih hw

lemma gives_index {collection : Value} (hc : V collection) (i : Int64) :
    Look.Gives I E (Look.index collection i) V := by
  simp only [Look.index]
  split
  · exact .bind (.lift (ends_checkIndex hE _ _)) fun n _ => Look.Gives.pure (S.ofNat _)
  · exact .bind (.lift (ends_asBlock_known hE _ hc)) fun b hb => gives_element S hE hb i

lemma gives_entry (m k : Value) :
    Look.Gives I E (Look.entry m k) fun o => ∀ v, o = some v → V v := by
  simp only [Look.entry]
  refine .bind (.lift (ends_asDict hE _ _)) fun d _ => ?_
  cases d with
  | none => exact Look.Gives.pure fun v hv => by cases hv
  | some d =>
    refine Look.Gives.read fun s hs v hv => ?_
    obtain ⟨e, he, rfl⟩ := Option.map_eq_some_iff.mp hv
    exact (S.entry s d e hs (List.mem_of_find?_eq_some he)).2

omit S in
lemma gives_length (v : Value) : Look.Gives I E (Look.length v) fun _ => True := by
  cases v <;>
    first
    | exact fun _ _ => trivial
    | exact fun _ _ => hE _ rfl

omit S in
lemma ends_sequencePosition (v : Value) : Ends E (fun _ => True) (sequencePosition v) := by
  cases v <;> first | exact trivial | exact hE _ rfl

lemma gives_iterate {collection : Value} (hc : V collection) (position : Nat) :
    Look.Gives I E (Look.iterate collection position) (Iteration.Holds V) := by
  simp only [Look.iterate]
  split
  · exact Look.Gives.pure trivial
  · refine Look.Gives.read fun s hs => ?_
    cases ht : s.target? _ position with
    | none => exact trivial
    | some v =>
      exact ⟨S.ofNat _, S.element s _ v hs (.inl hc) (Array.mem_of_getElem? ht), S.ofNat _⟩
  · split
    · exact Look.Gives.pure ⟨S.ofNat _, S.ofNat _, S.ofNat _⟩
    · exact Look.Gives.pure trivial
  · exact Look.Gives.pure (S.ofNat _)
  · split_ifs
    · exact Look.Gives.pure ⟨S.ofNat _, S.plain _ rfl, S.ofNat _⟩
    · exact Look.Gives.pure trivial
  · exact Look.Gives.throw (hE _ rfl)

omit hE in
lemma keeps_newSlice {elements : Array Value} (h : ∀ v ∈ elements, V v) :
    Op.Keeps I E (Op.newSlice elements) V :=
  .bind (.create fun s hs => ⟨S.newBlock s elements hs h, (S.fresh s hs).1⟩)
    fun b (hb : V (.slice b)) => .pure hb

omit hE in
lemma keeps_newStruct {fields : Array Value} (h : ∀ v ∈ fields, V v) :
    Op.Keeps I E (Op.newStruct fields) V :=
  .bind (.create fun s hs => ⟨S.newBlock s fields hs h, (S.fresh s hs).2⟩)
    fun b (hb : V (.struct b)) => .pure hb

omit S in
lemma keeps_setElement {b : BlockId}
    (hset : ∀ s i v, I s → V v → I (s.setElement b i v)) (i : Int64)
    {v : Value} (hv : V v) : Op.Keeps I E (Op.setElement b i v) fun _ => True :=
  .bind (.look (P := fun _ => True) fun _ _ => (ends_checkIndex hE i _).mono fun _ _ => trivial)
    fun _ _ => .modify fun s hs => hset s _ v hs hv

lemma keeps_cursor (d : DictId) {position : Value} (hp : V position) :
    Op.Keeps I E (Op.cursor d position) fun b => V (.struct b) := by
  have hstart : Op.Keeps I E (Op.cursor.start d) fun b => V (.struct b) := by
    refine .get fun t ht => ?_
    have hkeys : ∀ v ∈ (t.dict d).keys.toArray, V v := by
      intro v hv
      obtain ⟨e, he, rfl⟩ := List.mem_map.mp (List.mem_reverse.mp (Array.mem_def.mp hv))
      exact (S.entry t d e ht he).1
    refine .bind (keeps_newSlice S hkeys) fun keys hk => ?_
    refine .create fun s hs => ⟨S.newBlock s _ hs fun v hv => ?_, (S.fresh s hs).2⟩
    simp only [List.mem_toArray, List.mem_cons, List.not_mem_nil, or_false] at hv
    rcases hv with rfl | rfl
    · exact S.plain _ rfl
    · exact hk
  simp only [Op.cursor]
  split
  · exact .pure hp
  · exact hstart
  · exact hstart
  · exact .throw (hE _ rfl)

omit hE in
lemma holds_of_firstPresent? {s : Store} (hs : I s) (d : DictId) {keys : List Value}
    (hk : ∀ k ∈ keys, V k) {k v : Value} {n : Nat}
    (h : (s.dict d).firstPresent? keys = some (k, v, n)) : V k ∧ V v := by
  induction keys generalizing n with
  | nil => cases h
  | cons key keys ih =>
    simp only [Dict.firstPresent?] at h
    cases hg : (s.dict d).get? key with
    | some w =>
      rw [hg] at h
      cases h
      obtain ⟨e, he, rfl⟩ := Option.map_eq_some_iff.mp hg
      exact ⟨hk _ List.mem_cons_self, (S.entry s d e hs (List.mem_of_find?_eq_some he)).2⟩
    | none =>
      rw [hg] at h
      obtain ⟨⟨k', v', n'⟩, hr, he⟩ := Option.map_eq_some_iff.mp h
      cases he
      exact ih (fun a ha => hk a (List.mem_cons_of_mem _ ha)) hr

/-- A visit of a map overwrites nothing but the place in the cursor. -/
lemma keeps_iterateMap {C : BlockId → Prop} {d : DictId} {position : Value}
    (hcursor : Op.Keeps I E (Op.cursor d position) fun b => C b ∧ V (.struct b))
    (hset : ∀ b, C b → ∀ s v, I s → V v → I (s.setElement b 0 v)) :
    Op.Keeps I E (Op.iterateMap d position) (Iteration.Holds V) := by
  simp only [Op.iterateMap]
  refine .bind hcursor fun cursor ⟨hc, hcursor⟩ => ?_
  refine .bind (.look (gives_element S hE (.inr (.inl hcursor)) 1)) fun w hw => ?_
  refine .bind (.lift (ends_asBlock_known hE _ hw)) fun keys hkeys => ?_
  refine .bind (.look (gives_element S hE (.inr (.inl hcursor)) 0)) fun w _ => ?_
  refine .bind (.lift (ends_asInt hE _ w)) fun next _ => ?_
  refine .ite (fun _ => .pure trivial) fun _ => .get fun t ht => ?_
  have hkeys : ∀ k ∈ (t.block keys).toList.drop next.toInt.toNat, V k := fun k hk =>
    S.element t keys k ht hkeys (Array.mem_def.mpr (List.mem_of_mem_drop hk))
  cases h : (t.dict d).firstPresent? ((t.block keys).toList.drop next.toInt.toNat) with
  | none => exact .pure trivial
  | some found =>
    obtain ⟨k, v, n⟩ := found
    obtain ⟨hk, hv⟩ := holds_of_firstPresent? S ht d hkeys h
    refine .bind (.modify fun s hs => hset cursor hc s _ hs (S.ofNat _)) fun _ _ => ?_
    exact .pure ⟨hk, hv, hcursor⟩

end Stores

section Creation

variable (S : Steady I V) (hE : ∀ e, e.isAddress = false → E e)

include S hE

lemma keeps_newChannel (capacity : Nat) :
    Op.Keeps I E (Op.newChannel capacity) fun _ => True :=
  .bind (.lift (ends_checkCapacity hE capacity)) fun _ _ =>
    .create fun s hs => ⟨S.newChannel s capacity hs, trivial⟩

lemma keeps_zeroAt (g : Graph) (depth : Nat) (t : TypeId) :
    Op.Keeps I E (g.zeroAt depth t) V := by
  induction depth generalizing t with
  | zero => exact .throw (hE _ rfl)
  | succ depth ih =>
    simp only [Graph.zeroAt]
    refine .bind (.lift (ends_orStop hE _)) fun ty _ => ?_
    split
    case h_5 elem length _ =>
      refine .bind (.lift (ends_checkSize hE _ _)) fun _ _ => ?_
      refine .bind (.times length (ih elem)) fun elements he => ?_
      exact keeps_newSlice S fun v hv => he v (List.mem_toArray.mp hv)
    case h_6 fields _ =>
      refine .bind (.mapM fun t _ => ih t) fun elements he => ?_
      exact keeps_newStruct S fun v hv => he v (List.mem_toArray.mp hv)
    all_goals exact .pure (S.plain _ rfl)

lemma keeps_zero (g : Graph) (t : Option TypeId) : Op.Keeps I E (g.zero t) V := by
  cases t with
  | none => exact .pure (S.plain _ rfl)
  | some t => exact keeps_zeroAt S hE g _ t

/-- The block of a zero value has been created with it. -/
lemma keeps_zeroAt_block {P : BlockId → Prop} (hP : ∀ s : Store, I s → P ⟨s.blocks.size⟩)
    (g : Graph) (depth : Nat) (t : TypeId) : Op.Keeps I E (g.zeroAt depth t)
      fun v => V v ∧ ∀ op b, v.asBlock op = .ok b → P b := by
  have hplain : ∀ v : Value, v.isPlain = true →
      V v ∧ ∀ op b, v.asBlock op = .ok b → P b := by
    refine fun v hv => ⟨S.plain v hv, fun op b hb => ?_⟩
    cases v with
    | slice | struct => cases hv
    | _ => cases hb
  have hnew : ∀ elements : Array Value, (∀ v ∈ elements, V v) →
      Op.Keeps I E (Op.create fun s => s.newBlock elements)
        fun b => (V (.slice b) ∧ V (.struct b)) ∧ P b :=
    fun elements he => .create fun s hs => ⟨S.newBlock s elements hs he, S.fresh s hs, hP s hs⟩
  cases depth with
  | zero => exact .throw (hE _ rfl)
  | succ depth =>
    have hzero := keeps_zeroAt S hE g depth
    simp only [Graph.zeroAt]
    refine .bind (.lift (ends_orStop hE _)) fun ty _ => ?_
    split
    case h_5 elem length _ =>
      refine .bind (.lift (ends_checkSize hE _ _)) fun _ _ => ?_
      refine .bind (.times length (hzero elem)) fun elements he => ?_
      refine .bind (hnew _ fun v hv => he v (List.mem_toArray.mp hv)) fun b hb => ?_
      exact .pure ⟨hb.1.1, fun op c hc => Except.ok.inj hc ▸ hb.2⟩
    case h_6 fields _ =>
      refine .bind (.mapM fun t _ => hzero t) fun elements he => ?_
      refine .bind (hnew _ fun v hv => he v (List.mem_toArray.mp hv)) fun b hb => ?_
      exact .pure ⟨hb.1.2, fun op c hc => Except.ok.inj hc ▸ hb.2⟩
    all_goals exact .pure (hplain _ rfl)

lemma keeps_zero_block {P : BlockId → Prop} (hP : ∀ s : Store, I s → P ⟨s.blocks.size⟩)
    (g : Graph) (t : Option TypeId) : Op.Keeps I E (g.zero t)
      fun v => V v ∧ ∀ op b, v.asBlock op = .ok b → P b := by
  cases t with
  | none => exact .pure ⟨S.plain _ rfl, fun op b hb => by cases hb⟩
  | some t => exact keeps_zeroAt_block S hE hP g _ t

lemma keeps_zeros (p : Program) (types : List TypeId) :
    Op.Keeps I E (p.zeros types) fun vs => ∀ v ∈ vs, V v :=
  .mapM fun t _ => keeps_zero S hE p.graph (some t)

end Creation

/-! ### Operands -/

namespace Regime

variable {p : Program} {f : FrameId} {id : NodeId} {n : Node}

section Operands

variable (R : Regime p f id n I V E)

include R

lemma faults (f : Fault) (h : (Stop.fault f).isAddress = false) : E (.fault f) := R.tolerant _ h

lemma bind_node {α : Type} {next : Node → Op α} {P : α → Prop} (h : Op.Keeps I E (next n) P) :
    Op.Keeps I E (liftM (p.node id) >>= next) P := by
  rw [R.node]
  exact h

/-- A child of the node itself. -/
lemma ends_child (i : Nat) : Ends E (fun c => n.child? i = some c) (p.child id i) := by
  refine (Flowgraph.ends_child R.tolerant p id i).mono fun c hc => ?_
  obtain ⟨m, hm, hc⟩ := hc
  rw [R.node] at hm
  cases hm
  exact hc

lemma gives_operand {i : Nat} (h : ∀ c, n.child? i = some c → c ∈ p.touched id n) :
    Look.Gives I E (p.operand f id i) V :=
  .bind (.lift (R.ends_child i)) fun c hc => R.read c (h c hc)

/-- An operand of another node, all of which are touched. -/
lemma gives_operand_of (places : List Nat) {id' : NodeId} {i : Nat} (hi : i ∈ places)
    (h : ∀ c ∈ p.pick id' places, c ∈ p.touched id n) :
    Look.Gives I E (p.operand f id' i) V := by
  refine .bind (.lift (Flowgraph.ends_child R.tolerant p id' i)) fun c hc => R.read c (h c ?_)
  obtain ⟨m, hm, hc⟩ := hc
  rw [Program.pick, hm]
  exact Node.mem_pick hi hc

lemma gives_allValues {ids : List NodeId} (h : ∀ c ∈ ids, c ∈ p.touched id n) :
    Look.Gives I E (p.allValues f ids) fun vs => ∀ v ∈ vs, V v := by
  refine .bind (.mapM fun c hc => R.readAll c (h c hc)) fun vss hvss => ?_
  refine Look.Gives.pure fun v hv => ?_
  obtain ⟨vs, hvs, hv⟩ := List.mem_flatten.mp hv
  exact hvss vs hvs v hv

lemma keeps_assignAll {ids : List NodeId} {vs : List Value}
    (h : ∀ c ∈ ids, c ∈ Program.destinations n) (hv : ∀ v ∈ vs, V v) :
    Op.Keeps I E (p.assignAll f ids vs) fun _ => True :=
  .forM fun d hd => R.writeTo d.1 (h _ (List.of_mem_zip hd).1) d.2 (hv _ (List.of_mem_zip hd).2)

end Operands

end Regime

end Flowgraph
