import Mathlib.Tactic.Common
import Flowgraph.Proofs.Activation

/-!
# Stores that are intact

A store is intact in another one if all that it has is there unchanged. The other one may have
more: frames, blocks, dictionaries and channels that were created meanwhile. Creating something
leaves a store intact, and so does every change to what was created.
-/

namespace Flowgraph

/-! ### Tables -/

/-- All entries of a table are in another one, at the same places. -/
def Carried {α : Type} (xs ys : Array α) : Prop := ∀ i < xs.size, ys[i]? = xs[i]?

namespace Carried

variable {α : Type} {xs ys zs : Array α}

lemma refl (xs : Array α) : Carried xs xs := fun _ _ => rfl

lemma size_le (h : Carried xs ys) : xs.size ≤ ys.size := by
  by_contra hlt
  have hlast := h ys.size (Nat.not_le.mp hlt)
  simp at hlast
  omega

lemma trans (h : Carried xs ys) (h' : Carried ys zs) : Carried xs zs := by
  intro i hi
  rw [h' i (Nat.lt_of_lt_of_le hi h.size_le), h i hi]

lemma push (h : Carried xs ys) (a : α) : Carried xs (ys.push a) := by
  intro i hi
  have hne : i ≠ ys.size := Nat.ne_of_lt (Nat.lt_of_lt_of_le hi h.size_le)
  rw [Array.getElem?_push, if_neg hne, h i hi]

lemma modify (h : Carried xs ys) {j : Nat} (hj : xs.size ≤ j) (f : α → α) :
    Carried xs (ys.modify j f) := by
  intro i hi
  have hne : j ≠ i := Nat.ne_of_gt (Nat.lt_of_lt_of_le hi hj)
  rw [Array.getElem?_modify, if_neg hne, h i hi]

end Carried

/-! ### Stores -/

namespace Store

variable {s t u : Store}

/-- All that a store has is in another one, unchanged, and the same has been printed. -/
structure Intact (s t : Store) : Prop where
  frames : Carried s.frames t.frames
  blocks : Carried s.blocks t.blocks
  dicts : Carried s.dicts t.dicts
  channels : Carried s.channels t.channels
  output : t.output = s.output

namespace Intact

lemma refl (s : Store) : s.Intact s :=
  ⟨.refl _, .refl _, .refl _, .refl _, rfl⟩

lemma trans (h : s.Intact t) (h' : t.Intact u) : s.Intact u where
  frames := h.frames.trans h'.frames
  blocks := h.blocks.trans h'.blocks
  dicts := h.dicts.trans h'.dicts
  channels := h.channels.trans h'.channels
  output := h'.output.trans h.output

/-! What is created is apart from what there is. -/

lemma newBlock (h : s.Intact t) (elements : Array Value) :
    s.Intact (t.newBlock elements).2 ∧ s.blocks.size ≤ (t.newBlock elements).1.index :=
  ⟨{ h with blocks := h.blocks.push elements }, h.blocks.size_le⟩

lemma newDict (h : s.Intact t) (content : Dict) : s.Intact (t.newDict content).2 :=
  { h with dicts := h.dicts.push content }

lemma newChannel (h : s.Intact t) (capacity : Nat) : s.Intact (t.newChannel capacity).2 :=
  { h with channels := h.channels.push _ }

lemma withFrame (h : s.Intact t) (slots : Array Value) (parent : FrameId) :
    s.Intact (t.withFrame slots parent) :=
  { h with frames := h.frames.push _ }

lemma setElement (h : s.Intact t) {b : BlockId} (hb : s.blocks.size ≤ b.index) (i : Nat)
    (v : Value) : s.Intact (t.setElement b i v) :=
  { h with blocks := h.blocks.modify hb _ }

end Intact

end Store

/-! ### Operations that only create -/

variable {s : Store} {E : Stop → Prop}

lemma keeps_newSlice_intact (elements : Array Value) :
    Op.Keeps s.Intact E (Op.newSlice elements) fun v =>
      ∀ op b, v.asBlock op = .ok b → s.blocks.size ≤ b.index := by
  refine .bind (P := fun b => s.blocks.size ≤ b.index) (.create fun t ht => ht.newBlock elements)
    fun b hb => .pure fun op c hc => ?_
  cases hc
  exact hb

lemma keeps_newStruct_intact (fields : Array Value) :
    Op.Keeps s.Intact E (Op.newStruct fields) fun v =>
      ∀ op b, v.asBlock op = .ok b → s.blocks.size ≤ b.index := by
  refine .bind (P := fun b => s.blocks.size ≤ b.index) (.create fun t ht => ht.newBlock fields)
    fun b hb => .pure fun op c hc => ?_
  cases hc
  exact hb

lemma keeps_newChannel_intact (capacity : Nat) :
    Op.Keeps s.Intact (fun _ => True) (Op.newChannel capacity) fun _ => True :=
  .bind (.lift (ends_any _)) fun _ _ =>
    .create fun _ ht => ⟨ht.newChannel capacity, trivial⟩

/-- A zero value is made in blocks that were not there before. -/
lemma Graph.keeps_zeroAt_intact (g : Graph) (depth : Nat) (t : TypeId) :
    Op.Keeps s.Intact (fun _ => True) (g.zeroAt depth t) fun v =>
      ∀ op b, v.asBlock op = .ok b → s.blocks.size ≤ b.index := by
  induction depth generalizing t with
  | zero => exact .throw trivial
  | succ depth ih =>
    simp only [zeroAt]
    refine .bind (.lift (ends_any _)) fun ty _ => ?_
    split
    case h_5 elem length _ =>
      refine .bind (.lift (ends_any _)) fun _ _ => ?_
      exact .bind (.times length (ih elem)) fun elements _ => keeps_newSlice_intact _
    case h_6 fields _ =>
      exact .bind (.mapM fun t _ => ih t) fun elements _ => keeps_newStruct_intact _
    all_goals
      refine .pure fun op b hb => ?_
      cases hb

lemma Graph.keeps_zero_intact (g : Graph) (t : Option TypeId) :
    Op.Keeps s.Intact (fun _ => True) (g.zero t) fun v =>
      ∀ op b, v.asBlock op = .ok b → s.blocks.size ≤ b.index := by
  cases t with
  | none =>
    refine .pure fun op b hb => ?_
    cases hb
  | some t => exact g.keeps_zeroAt_intact _ t

lemma Program.keeps_zeros_intact (p : Program) (types : List TypeId) :
    Op.Keeps s.Intact (fun _ => True) (p.zeros types) fun _ => True :=
  (Op.Keeps.mapM fun t _ => p.graph.keeps_zero_intact (some t)).mono fun _ _ => trivial

/-- A call is bound to a frame of its own, whether or not it can be filled. -/
lemma Program.keeps_activate_intact (p : Program) (decl : NodeId) (parent : FrameId)
    (receiver : Option Value) (args : List Value) :
    Op.Keeps s.Intact (fun _ => True) (p.activate decl parent receiver args) fun _ => True := by
  intro t ht
  have hactivates := p.activates decl parent receiver args t
  cases hr : p.activate decl parent receiver args t with
  | ok callee t' =>
    rw [hr] at hactivates
    obtain ⟨d, -, ⟨slots, -, rfl⟩, -⟩ := hactivates
    exact ⟨ht.withFrame slots parent, trivial⟩
  | error e t' =>
    rw [hr] at hactivates
    rcases hactivates with ⟨rfl, -⟩ | ⟨d, -, ⟨slots, -, rfl⟩, -⟩
    · exact ⟨ht, trivial⟩
    · exact ⟨ht.withFrame slots parent, trivial⟩

lemma Program.keeps_bindCall_intact (p : Program) (f : FrameId) (id : NodeId) (op : String) :
    Op.Keeps s.Intact (fun _ => True) (p.bindCall f id op) fun _ => True := by
  rw [bindCall_eq]
  refine .bind (.look (Look.gives_any _)) fun binding _ => ?_
  cases binding with
  | declared decl parent receiver args => exact p.keeps_activate_intact decl parent receiver args
  | native name args => exact .pure trivial

end Flowgraph
