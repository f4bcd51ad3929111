import Mathlib.Tactic.Common
import Flowgraph.Operation
import Flowgraph.Proofs.Guarantee

/-!
# What the operation of a node upholds

All operations do the same few things: they read operands, create and change blocks,
dictionaries and channels, print, and write slots. A property of stores that survives each of
these survives every operation. `Regime` lists what has to be shown of a node and a frame, once
for every property, and `Regime.keeps_operation` draws the conclusion for all kinds of nodes
whose operation makes no frame.
-/

namespace Flowgraph

/-! ### Addresses -/

/-- A defect of an address: the frame or the slot that a node denotes does not exist. -/
def Defect.isAddress : Defect → Bool
  | levelTooDeep | slotBeyondFrame | resultSlotsBeyondFrame | parameterBeyondFrame
  | tooManyResults | rangePositionBeyondFrame => true
  | _ => false

/-- A stop at an address that does not exist. -/
def Stop.isAddress : Stop → Bool
  | fault (.malformed _ d) => d.isAddress
  | _ => false

/-- The children at some places. -/
def Node.pick (n : Node) (places : List Nat) : List NodeId := places.filterMap n.child?

lemma Node.mem_pick {n : Node} {places : List Nat} {i : Nat} {c : NodeId} (hi : i ∈ places)
    (hc : n.child? i = some c) : c ∈ n.pick places :=
  List.mem_filterMap.mpr ⟨i, hi, hc⟩

namespace Program

lemma node_eq_ok {p : Program} {id : NodeId} {n : Node} :
    p.node id = .ok n ↔ p.graph.node? id = some n := by
  unfold node Graph.node
  cases p.graph.node? id with
  | none =>
    constructor
    · intro h
      cases h
    · intro h
      cases h
  | some m =>
    constructor
    · intro h
      cases h
      rfl
    · intro h
      cases h
      rfl

lemma node_eq_ok_iff_mem {p : Program} {id : NodeId} {n : Node} :
    p.node id = .ok n ↔ (id, n) ∈ p.graph.entries := by
  rw [node_eq_ok, Graph.node?, Graph.entries, List.mem_map]
  constructor
  · intro h
    refine ⟨(n, id.index), ?_, rfl⟩
    rw [List.mem_zipIdx_iff_getElem?, Array.getElem?_toList]
    exact h
  · rintro ⟨⟨m, i⟩, hmem, he⟩
    rw [List.mem_zipIdx_iff_getElem?, Array.getElem?_toList] at hmem
    cases he
    exact hmem

/-- The children of a node at some places, if the graph has the node. -/
def pick (p : Program) (id : NodeId) (places : List Nat) : List NodeId :=
  match p.node id with
  | .ok n => n.pick places
  | .error _ => []

/-- The node that holds the value of a keyed element. -/
def keyedValue (p : Program) (id : NodeId) : List NodeId :=
  match p.node id with
  | .ok n => if n.kind = .keyValue then n.pick [1] else [id]
  | .error _ => []

/-- The receiver of a callee, if the callee is a selector. -/
def receiverOf (p : Program) (callee : NodeId) : List NodeId :=
  match p.node callee with
  | .ok n => if n.kind = .selector then n.pick [0] else []
  | .error _ => []

/-- The governing expression of the switch that a case belongs to. -/
def governing (p : Program) (id : NodeId) : List NodeId :=
  match p.switchOf id with
  | .ok switch => p.pick switch [0]
  | .error _ => []

/-- The nodes, besides the node itself, whose values the operation of a node reads or whose slots
it writes. -/
def touched (p : Program) (id : NodeId) (n : Node) : List NodeId :=
  match n.kind with
  | .binary _ | .land | .lor | .assignPointer | .index | .indexAddress | .indexMap | .send =>
    n.pick [0, 1]
  | .neg | .not | .inc | .dec | .indexPath | .receive => n.pick [0]
  | .close | .len | .sleep => n.pick [1]
  | .make => n.pick [2]
  | .range => n.pick [0, 1, 2]
  | .assign | .assignSpread | .ret => n.children
  | .assignZero => n.children.dropLast
  | .assignMap => (n.pick [0]).flatMap (p.pick · [0, 1]) ++ n.pick [1]
  | .arrayLit | .compositeLit | .println => n.children.drop 1
  | .mapLit => (n.children.drop 1).flatMap (p.pick · [0, 1])
  | .keyedLit => (n.children.drop 1).flatMap p.keyedValue
  | .caseTest =>
    match n.child? 0 with
    | some expr => expr :: p.governing id
    | none => []
  | .call | .spawn => n.children ++ (n.pick [0]).flatMap p.receiverOf
  | _ => []

/-- The nodes that an assignment or a loop writes to. -/
def destinations (n : Node) : List NodeId :=
  match n.kind with
  | .assign => n.children.take (n.children.length / 2)
  | .assignSpread | .assignZero => n.children.dropLast
  | .range => n.pick [0, 1]
  | _ => []

/-- What is written to is also touched. -/
lemma destinations_subset_touched {p : Program} {id : NodeId} {n : Node} {c : NodeId}
    (hc : c ∈ destinations n) : c ∈ p.touched id n := by
  cases hk : n.kind
  all_goals simp only [destinations, hk] at hc
  case assign =>
    simp only [touched, hk]
    exact List.mem_of_mem_take hc
  case assignSpread =>
    simp only [touched, hk]
    exact List.dropLast_subset _ hc
  case assignZero =>
    simp only [touched, hk]
    exact hc
  case range =>
    simp only [touched, hk]
    obtain ⟨i, hi, hc⟩ := List.mem_filterMap.mp hc
    refine Node.mem_pick ?_ hc
    simp only [List.mem_cons, List.not_mem_nil, or_false] at hi ⊢
    omega
  all_goals exact absurd hc List.not_mem_nil

end Program

/-! ### Properties of stores and values -/

/-- A value that refers neither to a frame nor to a block. -/
def Value.isPlain : Value → Bool
  | func _ _ | slice _ | struct _ | pointer _ _ => false
  | _ => true

lemma Value.ne_func_of_isPlain {v : Value} (h : v.isPlain = true) (decl : NodeId)
    (env : Option FrameId) : v ≠ .func decl env := by
  rintro rfl
  cases h

/-- A block that is referred to by a value with `V`. -/
def BlockId.Known (V : Value → Prop) (b : BlockId) : Prop :=
  V (.slice b) ∨ V (.struct b) ∨ ∃ i, V (.pointer b i)

/-- No two keys are equal: no insertion has found the key of an entry that was there before. -/
def Dict.Proper (d : Dict) : Prop := d.entries.Pairwise fun e e' => (e.1 == e'.1) = false

/-- What is created besides dictionaries breaks neither the property `I` of stores nor the property
`V` of the values that are around. -/
structure Steady (I : Store → Prop) (V : Value → Prop) : Prop where
  plain : ∀ v, v.isPlain = true → V v
  fresh : ∀ s : Store, I s → V (.slice ⟨s.blocks.size⟩) ∧ V (.struct ⟨s.blocks.size⟩)
  element : ∀ s b v, I s → b.Known V → v ∈ s.block b → V v
  entry : ∀ s d e, I s → e ∈ (s.dict d).entries → V e.1 ∧ V e.2
  newBlock : ∀ s elements, I s → (∀ v ∈ elements, V v) → I (s.newBlock elements).2
  newChannel : ∀ s capacity, I s → I (s.newChannel capacity).2

/-- What is created, put into dictionaries or printed breaks neither of them. -/
structure Stable (I : Store → Prop) (V : Value → Prop) : Prop extends Steady I V where
  writeLine : ∀ s line, I s → I (s.writeLine line)
  newDict : ∀ s d, I s → d.Proper → (∀ e ∈ d.entries, V e.1 ∧ V e.2) → I (s.newDict d).2
  insertEntry : ∀ s d k v, I s → V k → V v → I (s.insertEntry d k v)

lemma Stable.newMap {I : Store → Prop} {V : Value → Prop} (S : Stable I V) (s : Store) (hs : I s) :
    I (s.newDict {}).2 :=
  S.newDict s {} hs .nil fun _ he => absurd he List.not_mem_nil

/-- Elements of blocks that are known may be overwritten. -/
def Settable (I : Store → Prop) (V : Value → Prop) : Prop :=
  ∀ s b i v, I s → b.Known V → V v → I (s.setElement b i v)

/-- The operation of the kind overwrites elements of blocks. -/
def Kind.setsElements : Kind → Bool
  | assignPointer | keyedLit | range => true
  | _ => false

/-- What has to be known of a node and of the frame in which its operation is performed, so that
the operation keeps `I`, handles only values with `V`, and stops only with `E`. -/
structure Regime (p : Program) (f : FrameId) (id : NodeId) (n : Node) (I : Store → Prop)
    (V : Value → Prop) (E : Stop → Prop) : Prop extends Steady I V where
  node : p.node id = .ok n
  tolerant : ∀ e, e.isAddress = false → E e
  read : ∀ c ∈ p.touched id n, Look.Gives I E (p.value f c) V
  readAll : ∀ c ∈ p.touched id n, Look.Gives I E (p.values f c) fun vs => ∀ v ∈ vs, V v
  readSpread : n.kind = .assignSpread → ∀ source m start, n.children.getLast? = some source →
    p.node source = .ok m → m.slot = some start →
    Look.Gives I E (Program.slotsAt f m.level start n.children.dropLast.length source)
      fun vs => ∀ v ∈ vs, V v
  readPosition : n.kind = .range → ∀ slot, n.slot = some slot → ∀ s, I s →
    match s.slot? f (slot + 1) with
    | some v => V v
    | none => E (.malformed id .rangePositionBeyondFrame)
  writeOwn : n.kind.isStructural = false → ∀ v, V v → Op.Keeps I E (p.setOwn f id v) fun _ => True
  writeTo : ∀ c ∈ Program.destinations n, ∀ v, V v →
    Op.Keeps I E (p.assignTo f c v) fun _ => True
  writePosition : n.kind = .range → ∀ slot, n.slot = some slot → ∀ s v, I s → V v →
    I (s.setSlot f (slot + 1) v)
  writeResults : n.kind = .ret → Op.Keeps I E (p.ret f id) fun _ => True
  newMap : n.kind = .make → ∀ s, I s → I (s.newDict {}).2
  newDict : n.kind = .mapLit → ∀ s d, I s → d.Proper → (∀ e ∈ d.entries, V e.1 ∧ V e.2) →
    I (s.newDict d).2
  insertEntry : n.kind = .assignMap → ∀ s d k v, I s → V k → V v → I (s.insertEntry d k v)
  print : n.kind = .println → ∀ s line, I s → I (s.writeLine line)
  close : n.kind = .close → ∀ s c, I s → I (s.updateChannel c fun ch => { ch with closed := true })
  closure : n.kind = .funcLit → ∀ decl, n.payload = some (.func decl) →
    V (.func decl (some f))
  address : n.kind = .indexAddress → ∀ s b i, I s → b.Known V → i < (s.block b).size →
    V (.pointer b i)

end Flowgraph
