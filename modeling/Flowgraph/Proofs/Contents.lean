import Mathlib.Tactic.Common
import Flowgraph.Lifetime
import Flowgraph.Proofs.Activation
import Flowgraph.Proofs.Steps

/-!
# What a store holds

Values are held in slots, in blocks, in dictionaries and in the buffers of channels. A property
that all of them have survives everything that is done to a store, as long as only values with
the property are put into it.
-/

namespace Flowgraph

variable {V : Value → Prop} {s : Store}

/-! ### Tables -/

section Tables

variable {α : Type} {P : α → Prop} {table : Array α} {default : α}

lemma forall_getD_push (h : ∀ i : Nat, P (table[i]?.getD default)) {a : α} (ha : P a) (i : Nat) :
    P ((table.push a)[i]?.getD default) := by
  rw [Array.getElem?_push]
  split_ifs
  · exact ha
  · exact h i

lemma forall_getD_modify (h : ∀ i : Nat, P (table[i]?.getD default)) {f : α → α}
    (hf : ∀ a, P a → P (f a)) (j i : Nat) : P ((table.modify j f)[i]?.getD default) := by
  rw [Array.getElem?_modify]
  split_ifs
  · have hi := h i
    cases ht : table[i]? with
    | some a =>
      rw [ht] at hi
      exact hf a hi
    | none =>
      rw [ht] at hi
      exact hi
  · exact h i

end Tables

/-! ### Held values -/

/-- Every value that is held in a store has a property. -/
structure Store.Holds (V : Value → Prop) (s : Store) : Prop where
  slots : ∀ f, ∀ v ∈ s.slots f, V v
  block : ∀ b, ∀ v ∈ s.block b, V v
  dict : ∀ d, (s.dict d).Holds V
  buffer : ∀ ch, ∀ v ∈ (s.channel ch).buffer, V v

namespace Store

lemma holds_iff : s.Holds V ↔ ∀ i, ∀ v ∈ s.contents i, V v := by
  constructor
  · intro h i v hv
    cases i with
    | frame f => exact h.slots f v (Array.mem_def.mpr hv)
    | block b => exact h.block b v (Array.mem_def.mpr hv)
    | dict d =>
      obtain ⟨e, he, hv⟩ := List.mem_flatMap.mp hv
      rcases List.mem_cons.mp hv with rfl | hv
      · exact (h.dict d e he).1
      · rw [List.mem_singleton.mp hv]
        exact (h.dict d e he).2
    | channel ch => exact h.buffer ch v hv
  · intro h
    refine ⟨fun f v hv => ?_, fun b v hv => ?_, fun d e he => ⟨?_, ?_⟩, fun ch v hv => ?_⟩
    · exact h (.frame f) v (Array.mem_def.mp hv)
    · exact h (.block b) v (Array.mem_def.mp hv)
    · exact h (.dict d) e.1 (List.mem_flatMap.mpr ⟨e, he, List.mem_cons_self⟩)
    · exact h (.dict d) e.2 (List.mem_flatMap.mpr ⟨e, he, by simp⟩)
    · exact h (.channel ch) v hv

namespace Holds

variable (h : s.Holds V)

include h

lemma mono {V' : Value → Prop} (hV : ∀ v, V v → V' v) : s.Holds V' where
  slots f v hv := hV v (h.slots f v hv)
  block b v hv := hV v (h.block b v hv)
  dict d e he := ⟨hV _ (h.dict d e he).1, hV _ (h.dict d e he).2⟩
  buffer ch v hv := hV v (h.buffer ch v hv)

lemma newBlock {elements : Array Value} (he : ∀ v ∈ elements, V v) :
    (s.newBlock elements).2.Holds V where
  slots := h.slots
  block b := forall_getD_push (P := fun block => ∀ v ∈ block, V v) (fun i => h.block ⟨i⟩) he b.index
  dict := h.dict
  buffer := h.buffer

lemma setElement (b : BlockId) (i : Nat) {v : Value} (hv : V v) :
    (s.setElement b i v).Holds V where
  slots := h.slots
  block b' := by
    refine forall_getD_modify (P := fun block => ∀ v ∈ block, V v) (fun i => h.block ⟨i⟩) ?_ _ _
    intro block hb w hw
    rcases Array.mem_or_eq_of_mem_setIfInBounds hw with hw | rfl
    · exact hb w hw
    · exact hv
  dict := h.dict
  buffer := h.buffer

lemma newDict {d : Dict} (hd : d.Holds V) : (s.newDict d).2.Holds V where
  slots := h.slots
  block := h.block
  dict d' := forall_getD_push (P := Dict.Holds V) (fun i => h.dict ⟨i⟩) hd d'.index
  buffer := h.buffer

lemma insertEntry (d : DictId) {k v : Value} (hk : V k) (hv : V v) :
    (s.insertEntry d k v).Holds V where
  slots := h.slots
  block := h.block
  dict _ := forall_getD_modify (P := Dict.Holds V) (fun i => h.dict ⟨i⟩)
    (fun _ hd => hd.insert hk hv) _ _
  buffer := h.buffer

lemma newChannel (capacity : Nat) : (s.newChannel capacity).2.Holds V where
  slots := h.slots
  block := h.block
  dict := h.dict
  buffer ch := forall_getD_push (P := fun c : Channel => ∀ v ∈ c.buffer, V v)
    (fun i => h.buffer ⟨i⟩) (fun _ hv => absurd hv List.not_mem_nil) ch.index

lemma updateChannel (ch : ChannelId) {f : Channel → Channel}
    (hf : ∀ c : Channel, (∀ v ∈ c.buffer, V v) → ∀ v ∈ (f c).buffer, V v) :
    (s.updateChannel ch f).Holds V where
  slots := h.slots
  block := h.block
  dict := h.dict
  buffer _ := forall_getD_modify (P := fun c : Channel => ∀ v ∈ c.buffer, V v)
    (fun i => h.buffer ⟨i⟩) hf _ _

lemma pushValue (ch : ChannelId) {v : Value} (hv : V v) : (s.pushValue ch v).Holds V := by
  refine h.updateChannel ch fun c hc w hw => ?_
  rcases List.mem_append.mp hw with hw | hw
  · exact hc w hw
  · rw [List.mem_singleton.mp hw]
    exact hv

lemma popValue (ch : ChannelId) : (s.popValue ch).Holds V :=
  h.updateChannel ch fun _ hc w hw => hc w (List.mem_of_mem_tail hw)

lemma close (ch : ChannelId) :
    (s.updateChannel ch fun c => { c with closed := true }).Holds V :=
  h.updateChannel ch fun _ hc => hc

lemma writeLine (line : String) : (s.writeLine line).Holds V := ⟨h.slots, h.block, h.dict, h.buffer⟩

lemma setSlot (f : FrameId) (i : Nat) {v : Value} (hv : V v) : (s.setSlot f i v).Holds V where
  slots f' := by
    refine forall_getD_modify (P := fun fr : Frame => ∀ v ∈ fr.slots, V v)
      (fun i => h.slots ⟨i⟩) ?_ _ _
    intro fr hfr w hw
    rcases Array.mem_or_eq_of_mem_setIfInBounds hw with hw | rfl
    · exact hfr w hw
    · exact hv
  block := h.block
  dict := h.dict
  buffer := h.buffer

lemma withFrame {slots : Array Value} (hs : ∀ v ∈ slots, V v) (parent : FrameId) :
    (s.withFrame slots parent).Holds V where
  slots f := forall_getD_push (P := fun fr : Frame => ∀ v ∈ fr.slots, V v)
    (fun i => h.slots ⟨i⟩) hs f.index
  block := h.block
  dict := h.dict
  buffer := h.buffer

end Holds

end Store

/-- At the beginning, nothing but nil is held. -/
lemma Machine.holds_ofProgram (hV : V .nil) (p : Program) (kept : Bool) :
    (Machine.ofProgram p kept).store.Holds V := by
  refine ⟨fun f v hv => ?_, fun b v hv => ?_, fun d e he => ?_, fun ch v hv => ?_⟩
  · have hnil : v = .nil := by
      refine forall_getD_push (P := fun fr : Frame => ∀ v ∈ fr.slots, v = .nil)
        (fun i w hw => ?_) (fun w hw => Array.eq_of_mem_replicate hw) f.index v hv
      simp at hw
    rwa [hnil]
  · simp [ofProgram, Store.newFrame, Store.block] at hv
  · simp [ofProgram, Store.newFrame, Store.dict] at he
  · simp [ofProgram, Store.newFrame, Store.channel] at hv

end Flowgraph
