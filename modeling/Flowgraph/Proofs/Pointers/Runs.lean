import Mathlib.Tactic.Common
import Flowgraph.Proofs.Pointers.Elements

/-!
# Runs in which elements are left alone

A host uses a machine: it makes moves, begins chains and changes the store meanwhile. Whatever it
does, pointers stay within bounds and blocks keep their sizes, and an element that nobody overwrites
is what it was.
-/

namespace Flowgraph

variable {b : BlockId} {i : Nat} {s : Store}

/-! ### What a host does to a store -/

namespace Store

/-- What a host does to a store between the steps of chains. -/
inductive Edit where
  | setSlot (f : FrameId) (i : Nat) (v : Value)
  | clearFrame (f : FrameId)
  | newFrame (size : Nat) (parent : Option FrameId)
  | newBlock (elements : Array Value)
  | setElement (b : BlockId) (i : Nat) (v : Value)
  | newDict (content : Dict)
  | insertEntry (d : DictId) (k v : Value)
  | eraseEntry (d : DictId) (k : Value)
  | newChannel (capacity : Nat)
  | close (ch : ChannelId)
  | setOutput (output : Output)

/-- The store after an edit. -/
def edit (s : Store) : Edit → Store
  | .setSlot f i v => s.setSlot f i v
  | .clearFrame f => s.clearFrame f
  | .newFrame size parent => (s.newFrame size parent).2
  | .newBlock elements => (s.newBlock elements).2
  | .setElement b i v => s.setElement b i v
  | .newDict content => (s.newDict content).2
  | .insertEntry d k v => s.insertEntry d k v
  | .eraseEntry d k => s.eraseEntry d k
  | .newChannel capacity => (s.newChannel capacity).2
  | .close ch => s.updateChannel ch fun c => { c with closed := true }
  | .setOutput output => { s with output := output }

/-- The values that an edit puts into the store all have a property. -/
def Edit.Brings (V : Value → Prop) : Edit → Prop
  | .setSlot _ _ v | .setElement _ _ v => V v
  | .newBlock elements => ∀ v ∈ elements, V v
  | .newDict content => content.Holds V
  | .insertEntry _ k v => V k ∧ V v
  | _ => True

variable {V : Value → Prop} {e : Edit}

/-- Nothing else is held after an edit but what it brings, and nil. -/
lemma Holds.edit (h : s.Holds V) (hnil : V .nil) (he : e.Brings V) : (s.edit e).Holds V := by
  cases e with
  | setSlot f i v => exact h.setSlot f i he
  | clearFrame f =>
    refine ⟨fun g => ?_, h.block, h.dict, h.buffer⟩
    refine forall_getD_modify (P := fun fr : Frame => ∀ v ∈ fr.slots, V v)
      (fun i => h.slots ⟨i⟩) ?_ _ _
    intro fr _ v hv
    obtain ⟨_, -, rfl⟩ := Array.mem_map.mp hv
    exact hnil
  | newFrame size parent =>
    refine ⟨fun g => ?_, h.block, h.dict, h.buffer⟩
    refine forall_getD_push (P := fun fr : Frame => ∀ v ∈ fr.slots, V v) (fun i => h.slots ⟨i⟩) ?_ _
    intro v hv
    rw [Array.eq_of_mem_replicate hv]
    exact hnil
  | newBlock elements => exact h.newBlock he
  | setElement b i v => exact h.setElement b i he
  | newDict content => exact h.newDict he
  | insertEntry d k v => exact h.insertEntry d he.1 he.2
  | eraseEntry d k =>
    refine ⟨h.slots, h.block, fun d' => ?_, h.buffer⟩
    refine forall_getD_modify (P := Dict.Holds V) (fun i => h.dict ⟨i⟩)
      (fun content hc x hx => ?_) _ _
    exact hc x (List.mem_of_mem_eraseP hx)
  | newChannel capacity => exact h.newChannel capacity
  | close ch => exact h.close ch
  | setOutput output => exact ⟨h.slots, h.block, h.dict, h.buffer⟩

/-- No edit changes the size of a block. -/
lemma extends_edit (s : Store) (e : Edit) : s.Extends (s.edit e) := by
  cases e with
  | newBlock elements => exact (Extends.refl s).newBlock elements
  | setElement b i v => exact (Extends.refl s).setElement b i v
  | _ => exact (Extends.refl s).of_blocks rfl

/-- An edit changes no element but one that it sets. -/
lemma retains_edit (hb : b.index < s.blocks.size) (h : ∀ v, e ≠ .setElement b i v) :
    s.Retains b i (s.edit e) := by
  have hs : s.Retains b i s := ⟨hb, rfl⟩
  cases e with
  | newBlock elements => exact hs.newBlock elements
  | setElement c j v =>
    refine hs.setElement ?_ v
    rintro rfl rfl
    exact h v rfl
  | _ => exact hs.of_blocks rfl

end Store

/-! ### Runs -/

namespace Machine

variable {m start : Machine} {A : BlockId → Nat → Prop}

/-- What a machine can become while a host uses it, as long as nobody overwrites the elements `A`.
The host makes moves in any order, begins chains, changes the store and takes the recorded faults.
It gets pointers only to elements that are there. -/
inductive Evolves (A : BlockId → Nat → Prop) (start : Machine) : Machine → Prop
  | start : Evolves A start start
  | move {m : Machine} (h : Evolves A start m) (mv : Move)
    (hw : ∀ b i, A b i → ¬m.Overwrites mv b i) : Evolves A start (m.step mv)
  | host {m : Machine} (h : Evolves A start m) {c : Chain} (hc : c.Hosted)
    (hb : c.Bounded m.store) : Evolves A start (m.addChain c).2
  | edit {m : Machine} (h : Evolves A start m) {e : Store.Edit}
    (hb : e.Brings (Value.Bounded m.store)) (hw : ∀ b i, A b i → ∀ v, e ≠ .setElement b i v) :
    Evolves A start { m with store := m.store.edit e }
  | takeFaults {m : Machine} (h : Evolves A start m) : Evolves A start m.takeFaults.2

namespace Evolves

/-- Whatever a host does, pointers stay within bounds and blocks keep their sizes. -/
theorem sturdy (h : Evolves A start m) (hstart : start.Sturdy) :
    m.Sturdy ∧ start.store.Extends m.store := by
  induction h with
  | start => exact ⟨hstart, .refl _⟩
  | move _ mv _ ih => exact ⟨ih.1.step mv, ih.2.trans (ih.1.extends_step mv)⟩
  | host _ hc hb ih => exact ⟨ih.1.addChain hc hb, ih.2⟩
  | @edit m _ e hb _ ih =>
    have hext := m.store.extends_edit e
    exact ⟨ih.1.change (ih.1.bounded.store.edit (Value.bounded_plain rfl) hb) hext, ih.2.trans hext⟩
  | takeFaults _ ih => exact ⟨ih.1.takeFaults, ih.2⟩

/-- An element that nobody overwrites is what it was. -/
theorem retains (h : Evolves A start m) (hfits : start.Fits) (hA : A b i)
    (hb : b.index < start.store.blocks.size) : m.Fits ∧ start.store.Retains b i m.store := by
  induction h with
  | start => exact ⟨hfits, hb, rfl⟩
  | move _ mv hw ih =>
    have hstep := retains_step ih.1 ih.2.there (hw b i hA)
    exact ⟨ih.1.step mv, hstep.there, hstep.same.trans ih.2.same⟩
  | host _ hc _ ih => exact ⟨ih.1.addChain (fits_hosted hc), ih.2⟩
  | edit _ _ hw ih =>
    have hedit := Store.retains_edit ih.2.there (hw b i hA)
    exact ⟨ih.1, hedit.there, hedit.same.trans ih.2.same⟩
  | takeFaults _ ih => exact ih

end Evolves

end Machine

end Flowgraph
