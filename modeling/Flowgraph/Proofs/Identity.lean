import Mathlib.Tactic.Common
import Flowgraph.Proofs.Apart.Rest
import Flowgraph.Proofs.Equality
import Flowgraph.Proofs.Loops.Keys
import Flowgraph.Proofs.Maps.Functions
import Flowgraph.Proofs.Pointers.Exact

/-!
# Equal handles share

Handles are equal exactly if what is written through one of them is read through the other. A name
is given out once: what is created is unequal to everything that is there, and no later creation or
change makes equal values unequal or unequal values equal.
-/

namespace Flowgraph

open Named

/-! ### New values -/

namespace Value

variable {s : Store} {v w : Value} {T : Table} {k : Nat}

lemma beq_of_family_ne (h : v.family ≠ w.family) : (v == w) = false :=
  Bool.eq_false_iff.mpr fun he => h (family_eq_of_same he)

/-- A value is equal to none of the values that a store can hold. -/
def Novel (s : Store) (v : Value) : Prop :=
  ∀ w, Within s.size w → (v == w) = false ∧ (w == v) = false

/-- What mentions a name that has not been given out yet is new. -/
lemma novel_of_mentions (hk : Mentions v T k) (hnew : s.size T ≤ k) : v.Novel s := by
  intro w hw
  have hfloat : ∀ x, v ≠ float x := by
    rintro x rfl
    exact hk
  have hne : (v == w) = false := by
    refine Bool.eq_false_iff.mpr fun he => ?_
    rw [eq_of_beq hfloat he] at hk
    exact Nat.not_lt.mpr hnew (hw T k hk)
  exact ⟨hne, BEq.comm.trans hne⟩

lemma novel_of_asBlock {op : String} {b : BlockId} (hb : v.asBlock op = .ok b)
    (hnew : s.size .blocks ≤ b.index) : v.Novel s := by
  cases v with
  | slice c | struct c =>
    cases hb
    exact novel_of_mentions ⟨rfl, rfl⟩ hnew
  | _ => cases hb

end Value

/-! ### Tables that grow -/

lemma Store.robust_grows (s : Store) : Robust s.Grows where
  plain _ _ := trivial
  fresh _ _ := ⟨trivial, trivial⟩
  element _ _ _ _ _ _ := trivial
  entry _ _ _ _ _ := ⟨trivial, trivial⟩
  newBlock t elements ht _ := ht.trans (t.grows_newBlock elements)
  newDict t d ht _ _ := ht.trans (t.grows_newDict d)
  insertEntry t d k v ht _ _ := ht.trans (t.grows_insertEntry d k v)
  newChannel t capacity ht := ht.trans (t.grows_newChannel capacity)
  writeLine _ _ ht := fun T => by cases T <;> exact ht _
  setSlot t f i v ht := ht.trans (t.grows_setSlot f i v)
  withFrame t slots parent ht := ht.trans fun T => by cases T <;> simp [size, withFrame]

/-! ### Operations that make values -/

/-- An operation that begins in a store with a property leads to a store with another one, unless it
stops early. -/
def Op.Leaves {α : Type} (I : Store → Prop) (x : Op α) (Q : Store → Prop) : Prop :=
  ∀ s a t, I s → x s = .ok a t → Q t

namespace Op

variable {α β : Type} {I Q : Store → Prop} {P : α → Prop}

lemma Leaves.throw {e : Stop} : Leaves I (MonadExcept.throw e : Op α) Q :=
  fun _ _ _ _ h => by cases h

/-- What comes first has to keep what is relied on. -/
lemma Leaves.bind {x : Op α} {next : α → Op β} (h : Keeps I (fun _ => True) x P)
    (hn : ∀ a, P a → Leaves I (next a) Q) : Leaves I (x >>= next) Q := by
  intro s b t hs hr
  have hx := h s hs
  rw [bind_apply] at hr
  cases hxs : x s with
  | ok a u =>
    rw [hxs] at hx hr
    exact hn a hx.2 u b t hx.1 hr
  | error e u =>
    rw [hxs] at hr
    cases hr

lemma Leaves.completely {x : Op Unit} (h : Leaves I x Q) : Leaves I (Program.completely x) Q := by
  intro s pending t hs hr
  rw [Program.completely, bind_apply] at hr
  cases hxs : x s with
  | ok a u =>
    rw [hxs] at hr
    cases hr
    exact h s a t hs hxs
  | error e u =>
    rw [hxs] at hr
    cases hr

end Op

/-- The slot of a node holds a value that is equal to nothing that was there in another store. -/
def Node.HoldsNovel (n : Node) (f : FrameId) (s t : Store) : Prop :=
  ∃ i v, n.slot = some i ∧ t.slot? f i = some v ∧ v.Novel s

/-- The zero value of the type is a handle to a block that is made with it. -/
def Ty.isComposite : Ty → Bool
  | array _ _ | struct _ => true
  | _ => false

/-- The operation of the kind makes a handle to something new. -/
def Kind.makes : Kind → Bool
  | arrayLit | mapLit | compositeLit | keyedLit | make => true
  | _ => false

section Creation

variable {u : Store}

lemma keeps_newBlock_novel (elements : Array Value) :
    Op.Keeps u.Grows (fun _ => True) (Op.create fun s => s.newBlock elements)
      fun b => Value.Novel u (.slice b) ∧ Value.Novel u (.struct b) :=
  .create fun s hs => ⟨hs.trans (s.grows_newBlock elements),
    Value.novel_of_mentions ⟨rfl, rfl⟩ (hs .blocks), Value.novel_of_mentions ⟨rfl, rfl⟩ (hs .blocks)⟩

lemma keeps_newSlice_novel (elements : Array Value) :
    Op.Keeps u.Grows (fun _ => True) (Op.newSlice elements) (Value.Novel u) :=
  .bind (keeps_newBlock_novel elements) fun _ hb => .pure hb.1

lemma keeps_newStruct_novel (fields : Array Value) :
    Op.Keeps u.Grows (fun _ => True) (Op.newStruct fields) (Value.Novel u) :=
  .bind (keeps_newBlock_novel fields) fun _ hb => .pure hb.2

lemma keeps_newDict_novel (content : Dict) :
    Op.Keeps u.Grows (fun _ => True) (Op.create fun s => s.newDict content)
      fun d => Value.Novel u (.map d) :=
  .create fun s hs => ⟨hs.trans (s.grows_newDict content),
    Value.novel_of_mentions ⟨rfl, rfl⟩ (hs .dicts)⟩

lemma keeps_newChannel_novel (capacity : Nat) :
    Op.Keeps u.Grows (fun _ => True) (Op.newChannel capacity) fun ch => Value.Novel u (.chan ch) :=
  .bind (.lift (ends_any _)) fun _ _ =>
    .create fun s hs => ⟨hs.trans (s.grows_newChannel capacity),
      Value.novel_of_mentions ⟨rfl, rfl⟩ (hs .channels)⟩

/-- The zero value of an array or a struct is a new value. -/
lemma keeps_zeroAt_novel {g : Graph} {a : TypeId} {ty : Ty} (hty : g.type? a = some ty)
    (hcomposite : ty.isComposite = true) (depth : Nat) :
    Op.Keeps u.Grows (fun _ => True) (g.zeroAt depth a) (Value.Novel u) := by
  have hzero : ∀ depth b, Op.Keeps u.Grows (fun _ => True) (g.zeroAt depth b) fun _ => True :=
    keeps_zeroAt u.robust_grows.toSteady (fun _ _ => trivial) g
  have htype : g.type a = .ok ty := by
    rw [Graph.type, hty]
  cases depth with
  | zero => exact .throw trivial
  | succ depth =>
    simp only [Graph.zeroAt]
    refine .bind (.lift (ends_orStop (fun _ _ => trivial) _)) fun ty' hty' => ?_
    cases htype.symm.trans hty'
    cases ty with
    | array elem length =>
      refine .bind (.lift (ends_any _)) fun _ _ => ?_
      exact .bind (.times length (hzero depth elem)) fun _ _ => keeps_newSlice_novel _
    | struct fields =>
      exact .bind (.mapM fun b _ => hzero depth b) fun _ _ => keeps_newStruct_novel _
    | _ => cases hcomposite

end Creation

namespace Program

variable {p : Program} {f : FrameId} {id : NodeId} {n : Node} (hn : p.node id = .ok n) {u : Store}

include hn

lemma leaves_setOwn {v : Value} (hv : v.Novel u) :
    Op.Leaves u.Grows (p.setOwn f id v) (n.HoldsNovel f u) := by
  intro s _ t _ h
  obtain ⟨i, hi, hlt, rfl⟩ := of_setOwn hn (completely_apply h)
  exact ⟨i, v, hi, Store.slot?_setSlot_self hlt v, hv⟩

lemma leaves_arrayLit : Op.Leaves u.Grows (p.arrayLit f id) (n.HoldsNovel f u) := by
  refine .bind (.lift (ends_any _)) fun _ _ => .bind (.look (Look.gives_any _)) fun written _ => ?_
  refine .bind (.lift (ends_any _)) fun shape _ => ?_
  split
  · refine .bind (.times _ (keeps_zero u.robust_grows.toSteady (fun _ _ => trivial) _ _))
      fun rest _ => ?_
    exact .bind (keeps_newSlice_novel _) fun v hv => leaves_setOwn hn hv
  · exact .bind (keeps_newSlice_novel _) fun v hv => leaves_setOwn hn hv

lemma leaves_compositeLit : Op.Leaves u.Grows (p.compositeLit f id) (n.HoldsNovel f u) := by
  refine .bind (.lift (ends_any _)) fun _ _ => .bind (.look (Look.gives_any _)) fun written _ => ?_
  refine .bind (.lift (ends_any _)) fun shape _ => ?_
  split
  · refine .bind (keeps_zeros u.robust_grows.toSteady (fun _ _ => trivial) p _) fun rest _ => ?_
    exact .bind (keeps_newStruct_novel _) fun v hv => leaves_setOwn hn hv
  · exact .bind (keeps_newStruct_novel _) fun v hv => leaves_setOwn hn hv

lemma leaves_mapLit : Op.Leaves u.Grows (p.mapLit f id) (n.HoldsNovel f u) := by
  refine .bind (.lift (ends_any _)) fun _ _ => .bind (.look (Look.gives_any _)) fun pairs _ => ?_
  exact .bind (keeps_newDict_novel _) fun d hd => leaves_setOwn hn hd

/-- The block of a keyed literal is that of a zero value, and stays new while elements are written
to it. -/
lemma leaves_keyedLit (hk : n.kind = .keyedLit) :
    Op.Leaves u.Grows (p.keyedLit f id) (n.HoldsNovel f u) := by
  have R : Regime p f id n u.Grows (fun _ => True) fun _ => True :=
    regime_of_robust u.robust_grows hn fun hc => by rw [hk] at hc; cases hc
  have ht : p.touched id n = (n.children.drop 1).flatMap p.keyedValue := by
    simp only [touched, hk]
  refine .bind (.lift (ends_any _)) fun n' hn' => .bind (.lift (ends_any _)) fun a _ => ?_
  cases hn.symm.trans hn'
  refine .bind (keeps_zero_block (P := fun b => u.size .blocks ≤ b.index) R.toSteady
    (fun _ _ => trivial) (fun s hs => hs .blocks) _ a) fun v hv => ?_
  refine .bind (.lift (ends_any _)) fun b hb => ?_
  refine .bind (.forM fun c hc => R.keeps_setKeyed (fun d hd => ?_) fun s i w hs _ => ?_)
    fun _ _ => leaves_setOwn hn (Value.novel_of_asBlock hb (hv.2 _ b hb))
  · exact ht ▸ List.mem_flatMap.mpr ⟨c, hc, hd⟩
  · exact hs.trans (s.grows_setElement b i w)

lemma leaves_make : Op.Leaves u.Grows (p.make f id) (n.HoldsNovel f u) := by
  refine .bind (.lift (ends_any _)) fun a _ => .bind (.look (Look.gives_any _)) fun size _ => ?_
  refine .bind (.lift (ends_any _)) fun ty _ => ?_
  split
  · refine .bind (.lift (ends_any _)) fun _ _ => ?_
    refine .bind (.times size (keeps_zero u.robust_grows.toSteady (fun _ _ => trivial) _ _))
      fun zeros _ => ?_
    exact .bind (keeps_newSlice_novel _) fun v hv => leaves_setOwn hn hv
  · exact .bind (keeps_newChannel_novel size) fun ch hch => leaves_setOwn hn hch
  · exact .bind (keeps_newDict_novel {}) fun d hd => leaves_setOwn hn hd
  · exact .throw

/-- A node that makes a handle comes to a value that is equal to nothing that was there. -/
theorem holdsNovel_of_perform (hk : n.kind.makes = true) {pending : Pending} {s t : Store}
    (h : p.perform f id s = .ok pending t) : n.HoldsNovel f s t := by
  rw [perform_of_node hn] at h
  have hleaves : Op.Leaves s.Grows (p.operation f id n.kind) (n.HoldsNovel f s) := by
    cases hkind : n.kind
    case arrayLit => exact (leaves_arrayLit hn).completely
    case mapLit => exact (leaves_mapLit hn).completely
    case compositeLit => exact (leaves_compositeLit hn).completely
    case keyedLit => exact (leaves_keyedLit hn hkind).completely
    case make => exact (leaves_make hn).completely
    all_goals
      rw [hkind] at hk
      cases hk
  exact hleaves s pending t (.refl s) h

end Program

/-! ### What handles share -/

namespace Machine

variable {m m' start : Machine} {b c : BlockId} {i j : Nat} {d e : DictId} {k v : Value}

/-- Whatever is written to one element is read, in all ways, at the other. -/
def SharesElement (m : Machine) (b : BlockId) (i : Nat) (c : BlockId) (j : Nat) : Prop :=
  ∀ v, (m.mapStore fun s => s.setElement b i v).Reads c j v

/-- Whatever is written to an element of the first block is read at that element of the second. -/
def SharesElements (m : Machine) (b c : BlockId) : Prop :=
  ∀ i, i < (m.store.block b).size → m.SharesElement b i c i

lemma sharesElement_iff (h : i < (m.store.block b).size) :
    m.SharesElement b i c j ↔ b = c ∧ i = j := by
  constructor
  · intro hshares
    by_contra hne
    have hother : ∀ v, m.store.target? c j = some v := by
      intro v
      rw [← Store.target?_setElement_of_ne (fun hc hj => hne ⟨hc.symm, hj.symm⟩) v]
      exact (hshares v).pointer
    cases (hother .nil).symm.trans (hother (.bool true))
  · rintro ⟨rfl, rfl⟩ v
    exact reads_of_target (Store.target?_setElement_self h v)

lemma sharesElements_iff (h : 0 < (m.store.block b).size) : m.SharesElements b c ↔ b = c := by
  constructor
  · exact fun hshares => ((sharesElement_iff h).mp (hshares 0 h)).1
  · rintro rfl i hi
    exact (sharesElement_iff hi).mpr ⟨rfl, rfl⟩

/-- Looking a key up in a map yields a value. -/
structure Finds (m : Machine) (d : DictId) (k v : Value) : Prop where
  entry : Look.entry (.map d) k m.store = .ok (some v)
  index : ∀ f id n, m.program.node id = .ok n → n.kind = .indexMap →
    m.program.operand f id 0 m.store = .ok (.map d) → m.program.operand f id 1 m.store = .ok k →
    m.program.Answers f id m.store (.ok v)

lemma finds_of_get? (h : (m.store.dict d).get? k = some v) : m.Finds d k v where
  entry := congrArg Except.ok h
  index _ _ _ hn hk hm hkey := Program.answers_indexMap hn hk hm hkey (congrArg Except.ok h)

/-- Whatever is written to one map is found in the other under all keys that are equal to the key
that it was written under. A key that is not equal to itself is never found, but counts. -/
structure SharesEntries (m : Machine) (d e : DictId) : Prop where
  found : ∀ k k' v, (k == k') = true → (m.mapStore fun s => s.insertEntry d k v).Finds e k' v
  counted : ∀ k v, k.IsNaN → ((m.mapStore fun s => s.insertEntry d k v).store.dict e).size =
    (m.store.dict e).size + 1

lemma sharesEntries_iff (h : d.index < m.store.dicts.size) : m.SharesEntries d e ↔ d = e := by
  constructor
  · intro hshares
    by_contra hne
    have hother : ∀ v, (m.store.dict e).get? .nil = some v := by
      intro v
      have hentry := (hshares.found .nil .nil v rfl).entry
      have hdict : (m.store.insertEntry d .nil v).dict e = m.store.dict e := by
        rw [Store.insertEntry, Store.dict_modify (.inl h), if_neg hne]
      rw [← hdict]
      exact Except.ok.inj hentry
    cases (hother .nil).symm.trans (hother (.bool true))
  · rintro rfl
    constructor
    case found =>
      intro k k' v hkk
      refine finds_of_get? ?_
      show ((m.store.insertEntry d k v).dict d).get? k' = some v
      rw [Store.dict_insertEntry h, Dict.get?_insert, if_pos hkk]
    case counted =>
      intro k v hnan
      have hself : (k == k) = false := by
        rw [Bool.eq_false_iff, ne_eq, Value.beq_self_iff, not_not]
        exact hnan
      show ((m.store.insertEntry d k v).dict d).size = (m.store.dict d).size + 1
      rw [Store.dict_insertEntry h, Dict.size_insert, Dict.contains_eq_isSome,
        Dict.get?_of_ne_self hself]
      rfl

/-! ### Later machines -/

/-- Names are given out while a chain makes a step, and none is taken back. -/
lemma Grounded.grows_step (h : m.Grounded) (hp : m.program.Loaded)
    (hn : m.program.natives.Blind) (mv : Move) : m.store.Grows (m.step mv).store := by
  rcases m.step_cases mv with hm | hm
  · exact fun T => Nat.le_of_eq (Grounded.size_proceeds hm T).symm
  · obtain ⟨x, c, d, s, hc, hnext, hstep⟩ := next_of_advances hm
    rw [hstep]
    exact (Chain.closed_next hp hn hnext h.store (h.chains x c hc)).1

lemma Attains.grows (h : start.Kept) (hm : start.Attains m) : start.store.Grows m.store := by
  induction hm with
  | start => exact .refl _
  | move hm mv ih =>
    have hkept := h.attains hm
    exact ih.trans (hkept.grounded.grows_step hkept.loaded hkept.blind mv)
  | change _ hs _ ih => exact ih.trans hs
  | host _ _ _ ih | takeFaults _ ih => exact ih

/-- Nodes that compare two values find them equal, or find them unequal. -/
structure Compares (m : Machine) (v w : Value) (same : Bool) : Prop where
  equal : ∀ f id n, m.program.node id = .ok n → n.kind = .binary .equal →
    m.program.operand f id 0 m.store = .ok v → m.program.operand f id 1 m.store = .ok w →
    m.program.Answers f id m.store (.ok (.bool same))
  notEqual : ∀ f id n, m.program.node id = .ok n → n.kind = .binary .notEqual →
    m.program.operand f id 0 m.store = .ok v → m.program.operand f id 1 m.store = .ok w →
    m.program.Answers f id m.store (.ok (.bool !same))

lemma compares_beq (m : Machine) (v w : Value) : m.Compares v w (v == w) where
  equal _ _ _ hn hk hv hw := Program.answers_binary hn hk hv hw
  notEqual _ _ _ hn hk hv hw := Program.answers_binary hn hk hv hw

/-- What equality says in one machine, it says in another one. -/
structure EqualityPersists (m m' : Machine) : Prop where
  there : ∀ v : Value, Within m.store.size v → Within m'.store.size v
  novel : ∀ v : Value, v.Novel m'.store → v.Novel m.store
  compared : ∀ v w, m.Compares v w (v == w) ∧ m'.Compares v w (v == w)
  element : ∀ b i c j, i < (m.store.block b).size → i < (m'.store.block b).size →
    (m.SharesElement b i c j ↔ m'.SharesElement b i c j)
  elements : ∀ b c, 0 < (m.store.block b).size → 0 < (m'.store.block b).size →
    (m.SharesElements b c ↔ m'.SharesElements b c)
  entries : ∀ d e, d.index < m.store.dicts.size → (m.SharesEntries d e ↔ m'.SharesEntries d e)

lemma equalityPersists_of_grows (h : m.store.Grows m'.store) : m.EqualityPersists m' where
  there _ hv := hv.mono h
  novel _ hv w hw := hv w (hw.mono h)
  compared v w := ⟨m.compares_beq v w, m'.compares_beq v w⟩
  element _ _ _ _ hi hi' := (sharesElement_iff hi).trans (sharesElement_iff hi').symm
  elements _ _ hb hb' := (sharesElements_iff hb).trans (sharesElements_iff hb').symm
  entries _ _ hd := (sharesEntries_iff hd).trans
    (sharesEntries_iff (Nat.lt_of_lt_of_le hd (h .dicts))).symm

/-! ### The laws -/

/-- What equality of values is in a machine. -/
structure EqualityLaws (m : Machine) : Prop where
  symm : ∀ v w : Value, (v == w) = (w == v)
  trans : ∀ u v w : Value, (u == v) = true → (v == w) = true → (u == w) = true
  self : ∀ v : Value, (v == v) = true ↔ ¬v.IsNaN
  family : ∀ v w : Value, v.family ≠ w.family → (v == w) = false
  slice : ∀ b c, (Value.slice b == .slice c) = true ↔ b = c
  struct : ∀ b c, (Value.struct b == .struct c) = true ↔ b = c
  map : ∀ d e, (Value.map d == .map e) = true ↔ d = e
  chan : ∀ c d, (Value.chan c == .chan d) = true ↔ c = d
  pointer : ∀ b i c j, (Value.pointer b i == .pointer c j) = true ↔ b = c ∧ i = j
  func : ∀ decl env decl' env',
    (Value.func decl env == .func decl' env') = true ↔ decl = decl' ∧ env = env'
  /-- Blocks, elements and maps are the same exactly if they share what is written to them. -/
  elements : ∀ b c, 0 < (m.store.block b).size → (b = c ↔ m.SharesElements b c)
  element : ∀ b i c j, i < (m.store.block b).size → (b = c ∧ i = j ↔ m.SharesElement b i c j)
  entries : ∀ d e, d.index < m.store.dicts.size → (d = e ↔ m.SharesEntries d e)
  /-- This is how nodes write to elements and to maps. -/
  written : ∀ f id n b i v, m.program.node id = .ok n → n.kind = .assignPointer →
    m.program.operand f id 0 m.store = .ok (.pointer b i) →
    m.program.operand f id 1 m.store = .ok v → i < (m.store.block b).size →
    m.program.perform f id m.store = .ok .done (m.mapStore fun s => s.setElement b i v).store
  inserted : ∀ f id n d k v, m.program.node id = .ok n → n.kind = .assignMap →
    m.program.assignment f id m.store = .ok (.map d, k, v) →
    m.program.perform f id m.store = .ok .done (m.mapStore fun s => s.insertEntry d k v).store
  /-- The values that are there mention only names that have been given out. -/
  held : (∀ l, Within m.store.size (m.store.content l)) ∧
    ∀ x c, m.chain? x = some c → Within m.store.size c
  /-- What a node makes is equal to none of them. -/
  made : ∀ f id n pending t, m.program.node id = .ok n → n.kind.makes = true →
    m.program.perform f id m.store = .ok pending t → n.HoldsNovel f m.store t
  /-- Neither is the zero value of an array or a struct, in whatever store it is made. -/
  zeros : ∀ s a ty depth v t, m.program.graph.type? a = some ty → ty.isComposite = true →
    m.program.graph.zeroAt depth a s = .ok v t → v.Novel s
  /-- Whatever the machine becomes, what is equal stays equal, and what is made is new. -/
  lasting : ∀ m', m.Attains m' → m.EqualityPersists m'

lemma Kept.equalityLaws (h : m.Kept) : m.EqualityLaws where
  symm _ _ := BEq.comm
  trans _ _ _ := BEq.trans
  self := Value.beq_self_iff
  family _ _ := Value.beq_of_family_ne
  slice b c := beq_iff_eq (a := b) (b := c)
  struct b c := beq_iff_eq (a := b) (b := c)
  map d e := beq_iff_eq (a := d) (b := e)
  chan c d := beq_iff_eq (a := c) (b := d)
  pointer b i c j := by
    show (b == c && i == j) = true ↔ b = c ∧ i = j
    rw [Bool.and_eq_true, beq_iff_eq, beq_iff_eq]
  func decl env decl' env' := by
    show (decl == decl' && env == env') = true ↔ decl = decl' ∧ env = env'
    rw [Bool.and_eq_true, beq_iff_eq, beq_iff_eq]
  elements _ _ hb := (sharesElements_iff hb).symm
  element _ _ _ _ hi := (sharesElement_iff hi).symm
  entries _ _ hd := (sharesEntries_iff hd).symm
  written _ _ _ _ _ _ hn hk htarget hv hi := Program.perform_assignPointer hn hk htarget hv hi
  inserted _ _ _ _ _ _ hn hk ha := Program.perform_assignMap hn hk ha
  held := ⟨h.grounded.store.content, h.grounded.chains⟩
  made _ _ _ _ _ hn hk hdone := Program.holdsNovel_of_perform hn hk hdone
  zeros s _ _ depth _ _ hty hcomposite hzero := by
    have hkeeps := keeps_zeroAt_novel hty hcomposite depth s (.refl s)
    rw [hzero] at hkeeps
    exact hkeeps.2
  lasting _ hm' := equalityPersists_of_grows (hm'.grows h)

/-- Whatever a host has done with a machine: equality of handles is sharing, what is made is equal
to nothing that was there, and what is equal stays equal. -/
theorem equality_laws {graph : Graph} {natives : Registry} {config : Config} {kept : Bool}
    {loaded m : Machine} (hblind : natives.Blind)
    (hload : load graph natives config kept = .ok loaded) (hm : loaded.Attains m) :
    m.EqualityLaws :=
  ((kept_of_load hblind hload).attains hm).equalityLaws

end Machine

/-- Two slices are made with the same element, and compared. -/
def twins : Graph where
  globals := 3
  nodes := #[
    { kind := .arrayLit, children := [⟨1⟩, ⟨2⟩], slot := some 0, next := some ⟨3⟩ },
    { kind := .typeExpr },
    { kind := .basicLit, payload := some (.literal (.int 7)) },
    { kind := .arrayLit, children := [⟨1⟩, ⟨2⟩], slot := some 1, next := some ⟨4⟩ },
    { kind := .binary .equal, children := [⟨0⟩, ⟨3⟩], slot := some 2 }]

/-- The program, as it is loaded. -/
def twinsProgram : Program where
  graph := twins
  constants := #[none, none, some (.int 7), none, none]
  natives := .empty
  config := {}

/-- The machine after the first slice has been made. -/
def twinsBegun : Machine :=
  ((Machine.ofProgram twinsProgram true).addChain (.atNode ⟨0⟩)).2.step (.run ⟨0⟩)

/-- The slice that is made second is not equal to the first, and shares nothing with it. -/
theorem Machine.equality_laws_twins : ∃ start m m',
    Machine.load twins .empty {} true = .ok start ∧ start.Attains m ∧ m.Attains m' ∧
    m.store.slot? globalFrame 0 = some (.slice ⟨0⟩) ∧
    (∃ v, m'.store.slot? globalFrame 1 = some v ∧ v.Novel m.store) ∧
    m'.program.Answers globalFrame ⟨4⟩ m'.store (.ok (.bool false)) ∧
    (∀ c, m.SharesElements ⟨0⟩ c ↔ ⟨0⟩ = c) := by
  have hload : Machine.load twins .empty {} true = .ok (.ofProgram twinsProgram true) := rfl
  have hwithin := within_atNode (n := (Machine.ofProgram twinsProgram true).store.size)
    Nat.zero_lt_one ⟨0⟩
  have hbegun : (Machine.ofProgram twinsProgram true).Attains twinsBegun :=
    (Machine.Attains.start.host (.atNode ⟨0⟩) hwithin).move (.run ⟨0⟩)
  have hend : twinsBegun.Attains ((twinsBegun.step (.run ⟨0⟩)).step (.run ⟨0⟩)) :=
    (Machine.Attains.start.move (.run ⟨0⟩)).move (.run ⟨0⟩)
  have hlaws := Machine.equality_laws (fun _ he => absurd he List.not_mem_nil) hload hbegun
  refine ⟨_, _, _, hload, hbegun, hend, rfl, ?_, ?_, fun c => (hlaws.elements ⟨0⟩ c ?_).symm⟩
  · obtain ⟨i, v, hi, hv, hnovel⟩ := hlaws.made globalFrame ⟨3⟩ _ .done _ rfl rfl rfl
    cases hi
    exact ⟨v, hv, hnovel⟩
  · exact ((hlaws.lasting _ hend).compared (.slice ⟨0⟩) (.slice ⟨1⟩)).2.equal globalFrame ⟨4⟩ _ rfl
      rfl rfl rfl
  · exact Nat.zero_lt_one

end Flowgraph
