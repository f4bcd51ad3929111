import Flowgraph.Proofs.Names.Rename

/-!
# Renamed stores

A store is renamed by moving everything to its new name and renaming what is held there. What is
read from a renamed store is what is read from the store itself, with new names, and the same
changes on both sides lead to renamed stores again.
-/

namespace Flowgraph

open Named

/-! ### Contents of stores -/

instance : Named Frame where
  rename π f := ⟨rename π f.slots, rename π f.parent⟩
  Mentions f T k := Mentions f.slots T k ∨ Mentions f.parent T k
  rename_id _ := by simp
  rename_rename _ _ _ := by simp
  rename_eq_iff _ _ _ := by simp [rename_eq_iff, or_imp, forall_and]

instance : Named Dict where
  rename π d := ⟨rename π d.entries⟩
  Mentions d := Mentions d.entries
  rename_id _ := by simp
  rename_rename _ _ _ := by simp
  rename_eq_iff _ _ _ := by simp [rename_eq_iff]

instance : Named Channel where
  rename π c := { c with buffer := rename π c.buffer }
  Mentions c := Mentions c.buffer
  rename_id _ := by simp
  rename_rename _ _ _ := by simp
  rename_eq_iff _ _ _ := by simp [rename_eq_iff]

namespace Store

/-- The number of names that a table has given out. -/
def size (s : Store) : Table → Nat
  | .frames => s.frames.size
  | .blocks => s.blocks.size
  | .dicts => s.dicts.size
  | .channels => s.channels.size

/-- Names are given out, and none is taken back. -/
def Grows (s s' : Store) : Prop := ∀ T, s.size T ≤ s'.size T

lemma Grows.refl (s : Store) : s.Grows s := fun _ => Nat.le_refl _

lemma Grows.trans {s s' s'' : Store} (h : s.Grows s') (h' : s'.Grows s'') : s.Grows s'' :=
  fun T => Nat.le_trans (h T) (h' T)

end Store

@[simp] lemma rename_empty_array {α : Type} [Named α] (π : Renaming) :
    rename π (#[] : Array α) = #[] := by simp [rename_array]

lemma rename_frame (π : Renaming) (f : Frame) :
    rename π f = ⟨rename π f.slots, rename π f.parent⟩ := rfl

lemma rename_dict (π : Renaming) (d : Dict) : rename π d = ⟨rename π d.entries⟩ := rfl

/-! ### Dictionaries -/

section Dictionaries

variable {π : Renaming} (hπ : π.Injective) (d : Dict)

include hπ

lemma rename_insertEntry (k v : Value) (es : List (Value × Value)) :
    Dict.insertEntry (rename π k) (rename π v) (rename π es)
      = rename π (Dict.insertEntry k v es) := by
  induction es with
  | nil => rfl
  | cons e es ih =>
    have he : ((rename π e).1 == rename π k) = (e.1 == k) := beq_rename hπ e.1 k
    rw [rename_cons, Dict.insertEntry, Dict.insertEntry, he, ih]
    split_ifs <;> rfl

lemma rename_dict_insert (k v : Value) :
    (rename π d).insert (rename π k) (rename π v) = rename π (d.insert k v) :=
  congrArg Dict.mk (rename_insertEntry hπ k v d.entries)

lemma rename_get? (k : Value) : (rename π d).get? (rename π k) = rename π (d.get? k) := by
  obtain ⟨es⟩ := d
  simp only [Dict.get?, rename_dict]
  induction es with
  | nil => rfl
  | cons e es ih =>
    rw [rename_cons, List.find?_cons, List.find?_cons]
    have he : ((rename π e).1 == rename π k) = (e.1 == k) := beq_rename hπ e.1 k
    rw [he]
    cases (e.1 == k) with
    | true => rfl
    | false => exact ih

omit hπ in
lemma rename_keys : (rename π d).keys = rename π d.keys := by
  simp [Dict.keys, rename_dict, rename_list, Function.comp_def]

omit hπ in
lemma rename_dict_size : (rename π d).size = d.size := List.length_map ..

end Dictionaries

/-! ### Tables -/

variable {π : Renaming} {s s' t t' : Store}

/-- Everything in a table is moved to its new name and renamed. -/
structure Moved {α : Type} [Named α] (π : Renaming) (f : Nat → Nat) (a b : Array α) : Prop where
  size : b.size = a.size
  get : ∀ k : Nat, b[f k]? = rename π a[k]?

namespace Moved

variable {α : Type} [Named α] {f : Nat → Nat} {a b : Array α}

lemma push (h : Moved π f a b) (hf : Function.Injective f) (hsize : f a.size = a.size) (x : α) :
    Moved π f (a.push x) (b.push (rename π x)) where
  size := by rw [Array.size_push, Array.size_push, h.size]
  get k := by
    have hiff : f k = b.size ↔ k = a.size := by
      rw [h.size]
      constructor
      · exact fun hk => hf (hk.trans hsize.symm)
      · rintro rfl
        exact hsize
    rw [Array.getElem?_push, Array.getElem?_push]
    by_cases hk : k = a.size
    · rw [if_pos hk, if_pos (hiff.mpr hk)]
      rfl
    · rw [if_neg hk, if_neg (mt hiff.mp hk), h.get]

lemma modify (h : Moved π f a b) (hf : Function.Injective f) (k : Nat) {g g' : α → α}
    (hg : ∀ x, g' (rename π x) = rename π (g x)) :
      Moved π f (a.modify k g) (b.modify (f k) g') where
  size := by rw [Array.size_modify, Array.size_modify, h.size]
  get j := by
    rw [Array.getElem?_modify, Array.getElem?_modify, h.get]
    by_cases hk : k = j
    · subst hk
      rw [if_pos rfl, if_pos rfl]
      cases a[k]? with
      | none => rfl
      | some x => exact congrArg some (hg x)
    · rw [if_neg hk, if_neg fun he => hk (hf he)]

lemma getD [Inhabited α] (h : Moved π f a b) {x : α} (hx : rename π x = x) (k : Nat) :
    b[f k]?.getD x = rename π (a[k]?.getD x) := by
  rw [h.get]
  cases a[k]? with
  | none => exact hx.symm
  | some _ => rfl

end Moved

namespace Store

/-- A store is the other one with new names. -/
structure Renamed (π : Renaming) (s t : Store) : Prop where
  injective : π.Injective
  anchored : π .frames globalFrame.index = globalFrame.index
  frames : Moved π (π .frames) s.frames t.frames
  blocks : Moved π (π .blocks) s.blocks t.blocks
  dicts : Moved π (π .dicts) s.dicts t.dicts
  channels : Moved π (π .channels) s.channels t.channels
  output : t.output = s.output

/-- What was created between two stores has the same name before and after renaming. -/
def Fixes (π : Renaming) (s s' : Store) : Prop :=
  ∀ T k, s.size T ≤ k → k < s'.size T → π T k = k

namespace Renamed

variable (h : s.Renamed π t)

include h

lemma size_eq (T : Table) : t.size T = s.size T := by
  cases T with
  | frames => exact h.frames.size
  | blocks => exact h.blocks.size
  | dicts => exact h.dicts.size
  | channels => exact h.channels.size

/-! ### Reading -/

lemma frame (f : FrameId) : t.frame (rename π f) = rename π (s.frame f) :=
  h.frames.getD (by simp [rename_frame]) _

lemma slots (f : FrameId) : t.slots (rename π f) = rename π (s.slots f) :=
  congrArg Frame.slots (h.frame f)

lemma frameSize (f : FrameId) : t.frameSize (rename π f) = s.frameSize f := by
  rw [Store.frameSize, h.slots, rename_array, Array.size_map]
  rfl

lemma slot? (f : FrameId) (i : Nat) : t.slot? (rename π f) i = rename π (s.slot? f i) := by
  rw [Store.slot?, h.slots, rename_array, Array.getElem?_map]
  rfl

lemma parent? (f : FrameId) : t.parent? (rename π f) = rename π (s.parent? f) :=
  congrArg Frame.parent (h.frame f)

lemma ancestor? (f : FrameId) (n : Nat) :
    t.ancestor? (rename π f) n = rename π (s.ancestor? f n) := by
  induction n generalizing f with
  | zero => simp
  | succ n ih =>
    rw [ancestor?_succ, ancestor?_succ, h.parent?]
    cases s.parent? f with
    | none => rfl
    | some g => exact ih g

lemma range? (f : FrameId) (start count : Nat) :
    t.range? (rename π f) start count = rename π (s.range? f start count) := by
  rw [Store.range?, Store.range?, h.frameSize, h.slots, rename_array]
  split_ifs
  · simp [rename_list]
  · rfl

lemma block (b : BlockId) : t.block (rename π b) = rename π (s.block b) :=
  h.blocks.getD (by simp) _

lemma block_size (b : BlockId) : (t.block (rename π b)).size = (s.block b).size := by
  rw [h.block, rename_array, Array.size_map]

lemma target? (b : BlockId) (i : Nat) : t.target? (rename π b) i = rename π (s.target? b i) := by
  rw [Store.target?, h.block, rename_array, Array.getElem?_map]
  rfl

lemma dict (d : DictId) : t.dict (rename π d) = rename π (s.dict d) :=
  h.dicts.getD rfl _

lemma channel (c : ChannelId) : t.channel (rename π c) = rename π (s.channel c) :=
  h.channels.getD rfl _

/-! ### Writing -/

lemma setSlot (f : FrameId) (i : Nat) (v : Value) :
    (s.setSlot f i v).Renamed π (t.setSlot (rename π f) i (rename π v)) where
  injective := h.injective
  anchored := h.anchored
  frames := by
    simp only [Store.setSlot, index_rename_frame]
    exact h.frames.modify (h.injective _) _ fun fr => by
      simp [rename_frame, rename_array, Array.map_setIfInBounds]
  blocks := h.blocks
  dicts := h.dicts
  channels := h.channels
  output := h.output

lemma setElement (b : BlockId) (i : Nat) (v : Value) :
    (s.setElement b i v).Renamed π (t.setElement (rename π b) i (rename π v)) where
  injective := h.injective
  anchored := h.anchored
  frames := h.frames
  blocks := by
    simp only [Store.setElement, index_rename_block]
    exact h.blocks.modify (h.injective _) _ fun elements => by
      simp [rename_array, Array.map_setIfInBounds]
  dicts := h.dicts
  channels := h.channels
  output := h.output

lemma insertEntry (d : DictId) (k v : Value) :
    (s.insertEntry d k v).Renamed π (t.insertEntry (rename π d) (rename π k) (rename π v)) where
  injective := h.injective
  anchored := h.anchored
  frames := h.frames
  blocks := h.blocks
  dicts := by
    simp only [Store.insertEntry, index_rename_dict]
    exact h.dicts.modify (h.injective _) _ fun content =>
      rename_dict_insert h.injective content k v
  channels := h.channels
  output := h.output

lemma updateChannel (c : ChannelId) {f g : Channel → Channel}
    (hf : ∀ ch, g (rename π ch) = rename π (f ch)) :
    (s.updateChannel c f).Renamed π (t.updateChannel (rename π c) g) where
  injective := h.injective
  anchored := h.anchored
  frames := h.frames
  blocks := h.blocks
  dicts := h.dicts
  channels := by
    simp only [Store.updateChannel, index_rename_channel]
    exact h.channels.modify (h.injective _) _ hf
  output := h.output

lemma writeLine (line : String) : (s.writeLine line).Renamed π (t.writeLine line) where
  injective := h.injective
  anchored := h.anchored
  frames := h.frames
  blocks := h.blocks
  dicts := h.dicts
  channels := h.channels
  output := congrArg (·.writeLine line) h.output

/-! ### Creating -/

lemma newFrame (hfix : π .frames s.frames.size = s.frames.size) (size : Nat)
    (parent : Option FrameId) :
    (s.newFrame size parent).2.Renamed π (t.newFrame size (rename π parent)).2 where
  injective := h.injective
  anchored := h.anchored
  frames := by
    have hpush := h.frames.push (h.injective _) hfix ⟨Array.replicate size .nil, parent⟩
    simpa [Store.newFrame, rename_frame, rename_array] using hpush
  blocks := h.blocks
  dicts := h.dicts
  channels := h.channels
  output := h.output

lemma newBlock (hfix : π .blocks s.blocks.size = s.blocks.size) (elements : Array Value) :
    (s.newBlock elements).2.Renamed π (t.newBlock (rename π elements)).2 where
  injective := h.injective
  anchored := h.anchored
  frames := h.frames
  blocks := h.blocks.push (h.injective _) hfix elements
  dicts := h.dicts
  channels := h.channels
  output := h.output

lemma newDict (hfix : π .dicts s.dicts.size = s.dicts.size) (d : Dict) :
    (s.newDict d).2.Renamed π (t.newDict (rename π d)).2 where
  injective := h.injective
  anchored := h.anchored
  frames := h.frames
  blocks := h.blocks
  dicts := h.dicts.push (h.injective _) hfix d
  channels := h.channels
  output := h.output

lemma newChannel (hfix : π .channels s.channels.size = s.channels.size) (capacity : Nat) :
    (s.newChannel capacity).2.Renamed π (t.newChannel capacity).2 where
  injective := h.injective
  anchored := h.anchored
  frames := h.frames
  blocks := h.blocks
  dicts := h.dicts
  channels := h.channels.push (h.injective _) hfix { capacity := capacity }
  output := h.output

end Renamed

/-! ### Sizes -/

variable (s)

lemma grows_setSlot (f : FrameId) (i : Nat) (v : Value) : s.Grows (s.setSlot f i v) := by
  intro T
  cases T <;> simp [size, Store.setSlot]

lemma grows_setElement (b : BlockId) (i : Nat) (v : Value) : s.Grows (s.setElement b i v) := by
  intro T
  cases T <;> simp [size, Store.setElement]

lemma grows_insertEntry (d : DictId) (k v : Value) : s.Grows (s.insertEntry d k v) := by
  intro T
  cases T <;> simp [size, Store.insertEntry]

lemma grows_updateChannel (c : ChannelId) (f : Channel → Channel) :
    s.Grows (s.updateChannel c f) := by
  intro T
  cases T <;> simp [size, Store.updateChannel]

lemma grows_newFrame (n : Nat) (parent : Option FrameId) :
    s.Grows (s.newFrame n parent).2 := by
  intro T
  cases T <;> simp [size, Store.newFrame]

lemma grows_newBlock (elements : Array Value) : s.Grows (s.newBlock elements).2 := by
  intro T
  cases T <;> simp [size, Store.newBlock]

lemma grows_newDict (d : Dict) : s.Grows (s.newDict d).2 := by
  intro T
  cases T <;> simp [size, Store.newDict]

lemma grows_newChannel (capacity : Nat) : s.Grows (s.newChannel capacity).2 := by
  intro T
  cases T <;> simp [size, Store.newChannel]

end Store

end Flowgraph
