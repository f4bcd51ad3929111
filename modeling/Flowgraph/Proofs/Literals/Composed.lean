import Mathlib.Tactic.Common
import Flowgraph.Proofs.Literals.Elements
import Flowgraph.Proofs.Zeros.Uses

/-!
# Arrays and structs that are made

An array or a struct is made in a new block. Some of its elements are given; all others are zero
values of their own. It is all the same whether it is made of a list of elements that is filled up,
or of zero values that are written over.
-/

namespace Flowgraph

open Flowgraph.Graph

variable {g : Graph} {s t u : Store} {a : TypeId} {ty : Ty} {kind : Kind} {wrap : BlockId → Value}
  {τs τs' : List (Option TypeId)} {v : Value} {vs written : List Value} {b c : BlockId}
  {given : Nat → Option Value} {i j : Nat}

/-! ### Composite types -/

/-- A composite type, with the kind of its literals that list elements in order, and with the way in
which its values name their blocks. -/
inductive Ty.Composite : Ty → Kind → (BlockId → Value) → Prop
  | array (elem : TypeId) (length : Nat) : Composite (.array elem length) .arrayLit .slice
  | struct (fields : List (String × TypeId)) : Composite (.struct fields) .compositeLit .struct

namespace Ty.Composite

lemma block? (h : ty.Composite kind wrap) (b : BlockId) : (wrap b).block? = some b := by
  cases h <;> rfl

lemma asBlock (h : ty.Composite kind wrap) (op : String) (b : BlockId) :
    (wrap b).asBlock op = .ok b := by
  cases h <;> rfl

/-- A zero value of such a type has a block with zero values of the types that it is made of. -/
lemma exists_block (h : ty.Composite kind wrap) (hty : g.type? a = some ty)
    (hv : g.Zeroed s (some a) v) :
    ∃ b, v = wrap b ∧ List.Forall₂ (g.Zeroed s) (ty.made.map some) (s.block b).toList := by
  cases h with
  | array elem length =>
    obtain ⟨b, rfl⟩ : ∃ b, v = .slice b := by
      cases hv with
      | array => exact ⟨_, rfl⟩
      | handle hty' hhandle =>
        rw [hty] at hty'
        cases hty'
        cases hhandle
      | bool hty' | int hty' | float hty' | string hty' | struct hty' =>
        rw [hty] at hty'
        cases hty'
    exact ⟨b, rfl, by rwa [Ty.made, List.map_replicate, ← zeroed_slice_iff hty]⟩
  | struct fields =>
    obtain ⟨b, rfl⟩ := hv.exists_struct hty
    exact ⟨b, rfl, (zeroed_struct_iff hty).mp hv⟩

end Ty.Composite

/-! ### What is made -/

namespace Graph

/-- An array or a struct has been made in a new block since a store `s`. It holds what was given to
its elements, and elsewhere zero values. These are new too, and share nothing. -/
structure Composed (g : Graph) (s t : Store) (b : BlockId) (τs : List (Option TypeId))
    (given : Nat → Option Value) : Prop where
  extended : s.Extended t
  new : s.blocks.size ≤ b.index
  size : (t.block b).size = τs.length
  holds : ∀ i < τs.length, ∀ v, given i = some v → (t.block b)[i]? = some v
  zero : ∀ i τ, τs[i]? = some τ → given i = none → ∃ v, (t.block b)[i]? = some v ∧
    g.Zeroed t τ v ∧ ∀ c, t.Occupied [v] c → s.blocks.size ≤ c.index ∧ c ≠ b
  apart : ∀ i j v w c, given i = none → given j = none → (t.block b)[i]? = some v →
    (t.block b)[j]? = some w → t.Occupied [v] c → t.Occupied [w] c → i = j

/-- A block that a value has is found among values that it is one of. -/
lemma exists_among (hv : vs[j]? = some v) (h : t.Occupied [v] c) :
    ∃ path x, t.among? vs (j :: path) = some x ∧ x.block? = some c := by
  obtain ⟨P, x, hx, hc⟩ := h
  obtain ⟨path, rfl, hpart⟩ := ZeroValues.among?_singleton hx
  refine ⟨path, x, ?_, hc⟩
  rw [Store.among?, hv]
  exact hpart

/-- Zero values have been put where nothing is given, each to a place of its own. -/
lemma ZeroValues.composed (h : g.ZeroValues s t τs' vs) (hb : ¬t.Occupied vs b)
    (hext : s.Extended t) (hnew : s.blocks.size ≤ b.index) (hsize : (t.block b).size = τs.length)
    (hholds : ∀ i < τs.length, ∀ v, given i = some v → (t.block b)[i]? = some v) (place : Nat → Nat)
    (hplace : ∀ i < τs.length, given i = none →
      (t.block b)[i]? = vs[place i]? ∧ τs[i]? = τs'[place i]?)
    (hinj : ∀ i j, given i = none → given j = none → place i = place j → i = j) :
    g.Composed s t b τs given where
  extended := hext
  new := hnew
  size := hsize
  holds := hholds
  zero i τ hτ hnone := by
    have hi : i < τs.length := (List.getElem?_eq_some_iff.mp hτ).1
    obtain ⟨hblock, hτs⟩ := hplace i hi hnone
    obtain ⟨v, hv⟩ : ∃ v, (t.block b)[i]? = some v :=
      ⟨_, Array.getElem?_eq_getElem (hsize ▸ hi)⟩
    refine ⟨v, hv, ?_, fun c hc => ?_⟩
    · have hat := hτs.symm.trans hτ
      obtain ⟨hlt, hget⟩ := List.getElem?_eq_some_iff.mp hat
      obtain ⟨hlt', hget'⟩ := List.getElem?_eq_some_iff.mp (hblock.symm.trans hv)
      have hz := h.shapes.get hlt hlt'
      rwa [List.get_eq_getElem, List.get_eq_getElem, hget, hget'] at hz
    · obtain ⟨path, x, hx, hxc⟩ := exists_among (hblock.symm.trans hv) hc
      refine ⟨(h.new c ⟨_, x, hx, hxc⟩).1, ?_⟩
      rintro rfl
      exact hb ⟨_, x, hx, hxc⟩
  apart i j v w c hi hj hv hw hvc hwc := by
    have hlt : ∀ {k x}, (t.block b)[k]? = some x → k < τs.length := fun hk =>
      hsize ▸ (Array.getElem?_eq_some_iff.mp hk).1
    obtain ⟨path, x, hx, hxc⟩ := exists_among ((hplace i (hlt hv) hi).1.symm.trans hv) hvc
    obtain ⟨path', y, hy, hyc⟩ := exists_among ((hplace j (hlt hw) hj).1.symm.trans hw) hwc
    have hsame := h.unshared _ _ x y c hx hy hxc hyc
    exact hinj i j hi hj (List.cons.inj hsame).1

/-- What was written is filled up with zero values. -/
lemma ZeroValues.filledUp (h : g.ZeroValues s t (τs.drop written.length) vs) (hext : s.Extended t)
    (hle : written.length ≤ τs.length) :
    g.Composed s (t.newBlock (written ++ vs).toArray).2 (t.newBlock (written ++ vs).toArray).1 τs
      (fun i => written[i]?) := by
  obtain ⟨hin, hapart⟩ := h.newBlock (written ++ vs).toArray
  have hlength := h.shapes.length_eq
  rw [List.length_drop] at hlength
  refine hin.composed hapart (hext.newBlock _) hext.carried.size_le ?_ ?_
    (fun i => i - written.length) ?_ ?_
  · rw [Store.block_newBlock_self, List.size_toArray, List.length_append]
    omega
  · intro i _ v hv
    rw [Store.block_newBlock_self, List.getElem?_toArray,
      List.getElem?_append_left (List.getElem?_eq_some_iff.mp hv).1]
    exact hv
  · intro i _ hnone
    have hge := List.getElem?_eq_none_iff.mp hnone
    rw [Store.block_newBlock_self, List.getElem?_toArray, List.getElem?_append_right hge,
      List.getElem?_drop, Nat.add_sub_cancel' hge]
    exact ⟨rfl, rfl⟩
  · intro i j hi hj he
    have hi := List.getElem?_eq_none_iff.mp hi
    have hj := List.getElem?_eq_none_iff.mp hj
    omega

/-- Zero values are written over. -/
lemma ZeroValues.writtenOver (h : g.ZeroValues s t [some a] [wrap b])
    (hcomposite : ty.Composite kind wrap) (hty : g.type? a = some ty) (hext : s.Extended t)
    (ws : List (Nat × Value)) :
    g.Composed s (t.setElements b ws) b (ty.made.map some) (lastFor ws) := by
  have hshapes : List.Forall₂ (g.Zeroed t) (ty.made.map some) (t.block b).toList := by
    obtain ⟨b', hb', hshapes⟩ := hcomposite.exists_block hty (List.forall₂_cons.mp h.shapes).1
    have hsame := (hcomposite.block? b).symm.trans ((congrArg _ hb').trans (hcomposite.block? b'))
    rwa [Option.some.inj hsame]
  obtain ⟨hext', hinner, hapart⟩ := h.setElements (hcomposite.block? b) hshapes hext ws
  have hnew : s.blocks.size ≤ b.index := (h.new b ⟨[0], _, rfl, hcomposite.block? b⟩).1
  have hblock : (t.setElements b ws).block b = overwrite (t.block b) ws := by
    rw [Store.block_setElements, if_pos rfl]
  have hlength : (ty.made.map some).length = (t.block b).size := hshapes.length_eq
  refine hinner.composed hapart hext' hnew ?_ ?_ id ?_ fun _ _ _ _ h => h
  · rw [hblock, size_overwrite, hlength]
  · intro i hi v hv
    rw [hblock, getElem?_overwrite, hv, Array.getElem?_eq_getElem (hlength ▸ hi)]
    rfl
  · intro i hi hnone
    rw [hblock, getElem?_overwrite, hnone, Array.getElem?_toList]
    exact ⟨congrFun Option.map_id_fun' _, rfl⟩

end Graph

/-! ### Literals -/

namespace Program

variable {p : Program} {f : FrameId} {id : NodeId} {n : Node} {slot : Nat}

/-- A node makes an array or a struct of what is given, and goes on. -/
def Composes (p : Program) (f : FrameId) (id : NodeId) (s : Store) (slot : Nat)
    (wrap : BlockId → Value) (τs : List (Option TypeId)) (given : Nat → Option Value) : Prop :=
  ∃ b t, p.perform f id s = .ok .done (t.setSlot f slot (wrap b)) ∧ p.graph.Composed s t b τs given

/-- A node is a literal of a type, and its own slot is there. -/
structure LiteralAt (p : Program) (s : Store) (f : FrameId) (id : NodeId) (n : Node) (kind : Kind)
    (a : TypeId) (slot : Nat) : Prop where
  node : p.node id = .ok n
  ofKind : n.kind = kind
  ofType : p.literalType n = .ok (some a)
  own : n.slot = some slot
  lt : slot < s.frameSize f

lemma LiteralAt.perform_ok {op : Op Unit} (h : p.LiteralAt s f id n kind a slot)
    (hop : p.operation f id kind = completely op) (hr : op s = p.setOwn f id v t)
    (hframes : t.frames = s.frames) : p.perform f id s = .ok .done (t.setSlot f slot v) := by
  rw [perform_of_node h.node, h.ofKind, hop]
  refine completely_apply (hr.trans (setOwn_apply h.node h.own ?_ v))
  rw [Store.frameSize_of_frames hframes]
  exact h.lt

lemma LiteralAt.perform_error {op : Op Unit} {e : Stop} (h : p.LiteralAt s f id n kind a slot)
    (hop : p.operation f id kind = completely op) (hr : op s = .error e t) :
    p.perform f id s = .error e t := by
  rw [perform_of_node h.node, h.ofKind, hop, completely, Op.bind_apply, hr]

/-- A literal that lists its elements makes zero values for the others, and puts all of them into a
new block. -/
lemma LiteralAt.exists_rest (h : p.LiteralAt s f id n kind a slot)
    (hcomposite : ty.Composite kind wrap) (hty : p.graph.type? a = some ty)
    (ha : p.graph.Founded a) (hwritten : p.elements f n s = .ok written) :
    ∃ (op : Op Unit) (rest : Op (List Value)), p.operation f id kind = completely op ∧
      p.graph.Makes ((ty.made.map some).drop written.length) (fun vs => vs) rest ∧
      op s = (do
        let vs ← rest
        let b ← Op.create fun s => s.newBlock (written ++ vs).toArray
        p.setOwn f id (wrap b)) s := by
  have htype : p.type a = .ok ty := by
    rw [type, Graph.type, hty]
    rfl
  have hshape : p.literalShape n = .ok (some ty) := by
    simp only [literalShape, bind, Except.bind, h.ofType, htype]
    rfl
  have hparts : ∀ b ∈ ty.made, p.graph.Founded b := fun b hb =>
    ha.part hty (Ty.mem_parts_of_mem_made hb)
  cases hcomposite with
  | array elem length =>
    refine ⟨p.arrayLit f id, Op.times (length - written.length) (p.graph.zero (some elem)), rfl,
      ?_, ?_⟩
    · rw [Ty.made, List.map_replicate, List.drop_replicate]
      exact (makes_zero_some (ha.part hty (List.mem_singleton.mpr rfl))).times _
    · rw [arrayLit, Op.except_bind_apply, h.node]
      dsimp only
      rw [Op.look_bind_apply, hwritten]
      dsimp only
      rw [Op.except_bind_apply, hshape]
      rfl
  | struct fields =>
    refine ⟨p.compositeLit f id, p.zeros ((fields.map Prod.snd).drop written.length), rfl, ?_, ?_⟩
    · rw [← List.map_drop]
      exact Makes.mapM fun a ha => makes_zero_some (hparts a (List.mem_of_mem_drop ha))
    · rw [compositeLit, Op.except_bind_apply, h.node]
      dsimp only
      rw [Op.look_bind_apply, hwritten]
      dsimp only
      rw [Op.except_bind_apply, hshape]
      rfl

/-- A literal that lists elements makes an array or a struct that begins with them, unless a zero
value behind them is too large. -/
theorem LiteralAt.listing (h : p.LiteralAt s f id n kind a slot)
    (hcomposite : ty.Composite kind wrap) (hty : p.graph.type? a = some ty)
    (ha : p.graph.Founded a) (hwritten : p.elements f n s = .ok written)
    (hle : written.length ≤ ty.made.length) :
    (¬p.graph.TooLarge ((ty.made.map some).drop written.length) →
      p.Composes f id s slot wrap (ty.made.map some) fun i => written[i]?) ∧
    (p.graph.TooLarge ((ty.made.map some).drop written.length) →
      ∃ t, p.perform f id s = .error .tooLarge t) := by
  obtain ⟨op, rest, hop, hmakes, heq⟩ := h.exists_rest hcomposite hty ha hwritten
  constructor
  · intro hfit
    obtain ⟨vs, t, hrest, hext, hvs⟩ := hmakes.ok hfit s
    refine ⟨_, _, h.perform_ok hop ?_ ?_, hvs.filledUp hext (by rwa [List.length_map])⟩
    · rw [heq, Op.bind_apply, hrest]
      rfl
    · rw [(hext.newBlock _).beside]
  · intro hlarge
    obtain ⟨t, hrest⟩ := hmakes.error hlarge s
    refine ⟨t, h.perform_error hop ?_⟩
    rw [heq, Op.bind_apply, hrest]

/-! ### Keyed literals -/

/-- The zero value that literals of a type begin with. -/
structure Begins (p : Program) (s : Store) (a : TypeId) (ty : Ty) (wrap : BlockId → Value)
    (b : BlockId) (t : Store) : Prop where
  zero : p.graph.zero (some a) s = .ok (wrap b) t
  extended : s.Extended t
  values : p.graph.ZeroValues s t [some a] [wrap b]
  size : (t.block b).size = ty.made.length

lemma exists_begins (hcomposite : ty.Composite kind wrap) (hty : p.graph.type? a = some ty)
    (ha : p.graph.Founded a) (hfit : ¬p.graph.Oversized a) (s : Store) :
    ∃ b t, p.Begins s a ty wrap b t := by
  have hnot : ¬p.graph.TooLarge [some a] := fun h => hfit (tooLarge_singleton.mp h)
  obtain ⟨v, t, hzero, hext, hv⟩ := (makes_zero_some ha).ok hnot s
  obtain ⟨b, rfl, hshapes⟩ := hcomposite.exists_block hty (List.forall₂_cons.mp hv.shapes).1
  have hlength := hshapes.length_eq
  rw [List.length_map, Array.length_toList] at hlength
  exact ⟨b, t, hzero, hext, hv, hlength.symm⟩

/-- All keys and values are there, so the zero value is written over. -/
lemma LiteralAt.perform_keyed {ws : List (Nat × Value)} (h : p.LiteralAt s f id n .keyedLit a slot)
    (hcomposite : ty.Composite kind wrap) (hb : p.Begins s a ty wrap b t)
    (hkeyed : List.Forall₂ (p.Keyed s f ty.made.length) (n.children.drop 1) ws) :
    p.perform f id s = .ok .done ((t.setElements b ws).setSlot f slot (wrap b)) := by
  have hframes : t.frames = s.frames := by rw [hb.extended.beside]
  have hop : p.operation f id .keyedLit = completely (p.keyedLit f id) := rfl
  refine h.perform_ok hop ?_ ?_
  · rw [keyedLit_unfold h.node h.ofType, Op.bind_apply, hb.zero]
    dsimp only
    rw [Op.except_bind_apply, hcomposite.asBlock]
    dsimp only
    rw [Op.bind_apply, setKeyeds hkeyed hframes hb.size]
  · rw [Store.setElements_eq]
    exact hframes

lemma of_setElement {look : Look Value} {size : Nat} {index : Int64} (hlook : look t = look s)
    (hsize : (t.block b).size = size)
    (h : ((liftM look : Op Value) >>= fun v => Op.setElement b index v) t = .ok () u) :
    ∃ v k, look s = .ok v ∧ checkIndex index size = .ok k ∧ u = t.setElement b k v := by
  rw [Op.look_bind_apply, hlook] at h
  cases hv : look s with
  | error e =>
    rw [hv] at h
    cases h
  | ok v =>
    rw [hv] at h
    simp only [Op.setElement, Op.bind_apply, Op.read, hsize] at h
    cases hk : checkIndex index size with
    | error e =>
      rw [hk] at h
      cases h
    | ok k =>
      rw [hk] at h
      cases h
      exact ⟨v, k, rfl, rfl, rfl⟩

/-- If a keyed element is written, its number and its value are there. -/
lemma keyed_of_setKeyed {size : Nat} {c : NodeId} (ht : t.frames = s.frames)
    (hsize : (t.block b).size = size) (h : p.setKeyed f b c t = .ok () u) :
    ∃ w, p.Keyed s f size c w ∧ u = t.setElement b w.1 w.2 := by
  rw [setKeyed, Op.except_bind_apply] at h
  cases hn : p.node c with
  | error e =>
    rw [hn] at h
    cases h
  | ok n =>
    rw [hn] at h
    dsimp only at h
    cases hfield : n.field? with
    | none =>
      rw [hfield] at h
      cases h
    | some field =>
      rw [hfield] at h
      dsimp only at h
      split_ifs at h with hk
      · have hsame : p.operand f c 1 t = p.operand f c 1 s :=
          Look.bind_congr rfl fun c => value_of_frames ht
        obtain ⟨v, k, hv, hindex, hu⟩ := of_setElement hsame hsize h
        exact ⟨(k, v), ⟨n, field, hn, hfield, hindex, by rwa [if_pos hk]⟩, hu⟩
      · obtain ⟨v, k, hv, hindex, hu⟩ := of_setElement (value_of_frames ht) hsize h
        exact ⟨(k, v), ⟨n, field, hn, hfield, hindex, by rwa [if_neg hk]⟩, hu⟩

/-- If all are written, then all numbers and values are there. -/
lemma keyed_of_forM {size : Nat} {cs : List NodeId} (ht : t.frames = s.frames)
    (hsize : (t.block b).size = size) (h : (cs.forM (p.setKeyed f b) : Op Unit) t = .ok () u) :
    ∃ ws, List.Forall₂ (p.Keyed s f size) cs ws := by
  induction cs generalizing t with
  | nil => exact ⟨[], .nil⟩
  | cons c cs ih =>
    change (p.setKeyed f b c >>= fun _ => cs.forM (p.setKeyed f b)) t = _ at h
    rw [Op.bind_apply] at h
    cases hc : p.setKeyed f b c t with
    | error e r =>
      rw [hc] at h
      cases h
    | ok _ r =>
      rw [hc] at h
      obtain ⟨w, hw, rfl⟩ := keyed_of_setKeyed ht hsize hc
      have hsize' : ((t.setElement b w.1 w.2).block b).size = size := by
        rw [Store.block_setElement, if_pos rfl, Array.size_setIfInBounds, hsize]
      obtain ⟨ws, hws⟩ := ih (t := t.setElement b w.1 w.2) ht hsize' h
      exact ⟨w :: ws, .cons hw hws⟩

end Program

end Flowgraph
