import Mathlib.Tactic.Common
import Mathlib.Data.List.Nodup
import Mathlib.Data.List.Range
import Flowgraph.Lifetime

/-!
# What is alive

References are counted, so an item is alive as long as something alive refers to it: handles are,
and items may keep each other alive in a circle. `Live` says so without saying how it is found out,
and `mem_inUse` says that what is in use is what is alive.
-/

namespace Flowgraph

/-! ### References -/

/-- Where a frame is referred to. -/
inductive Reference where
  /-- The handle of a number. -/
  | handle (n : Nat)
  /-- The link of a frame to the frame further out. -/
  | outer (child : FrameId)
  /-- A closure in a slot. -/
  | slot (f : FrameId) (i : Nat)
  /-- A closure among the elements of a slice or struct. -/
  | element (b : BlockId) (i : Nat)
  /-- A closure as a key of a map. -/
  | key (d : DictId) (i : Nat)
  /-- A closure as a value of a map. -/
  | entry (d : DictId) (i : Nat)
  /-- A closure in the buffer of a channel. -/
  | buffered (c : ChannelId) (i : Nat)
  deriving DecidableEq

namespace Reference

/-- The item that holds a reference; a handle is held by the host. -/
def holder? : Reference → Option Item
  | handle _ => none
  | outer f | slot f _ => some (.frame f)
  | element b _ => some (.block b)
  | key d _ | entry d _ => some (.dict d)
  | buffered c _ => some (.channel c)

end Reference

/-- The frame that a closure is over. -/
def Value.env? : Value → Option FrameId
  | func _ env => env
  | _ => none

namespace Value

variable {v : Value} {f : FrameId}

lemma captures_iff : v.captures f = true ↔ v.env? = some f := by
  cases v with
  | func decl env =>
    cases env with
    | none => exact ⟨fun h => Bool.noConfusion h, fun h => by cases h⟩
    | some g =>
      rw [captures, env?, beq_iff_eq]
      exact ⟨fun h => congrArg some h.symm, fun h => (Option.some.inj h).symm⟩
  | _ => exact ⟨fun h => Bool.noConfusion h, fun h => by cases h⟩

lemma item?_eq_frame : v.item? = some (.frame f) ↔ v.env? = some f := by
  cases v with
  | func decl env => cases env <;> simp [item?, env?]
  | _ => simp [item?, env?]

end Value

namespace FrameTable

/-- The frame that a reference refers to. -/
def target? (t : FrameTable) : Reference → Option FrameId
  | .handle n => t.frame? n
  | .outer f => t.store.parent? f
  | .slot f i => (t.store.slot? f i).bind Value.env?
  | .element b i => (t.store.block b)[i]?.bind Value.env?
  | .key d i => (t.store.dict d).entries[i]?.bind fun e => e.1.env?
  | .entry d i => (t.store.dict d).entries[i]?.bind fun e => e.2.env?
  | .buffered c i => (t.store.channel c).buffer[i]?.bind Value.env?

/-- Items that keep each other alive: each of them is there, and a handle or one of them refers to
it. -/
structure Keeps (t : FrameTable) (S : Item → Prop) : Prop where
  exist : ∀ i, S i → i ∈ t.store.items
  kept : ∀ i, S i → (∃ f ∈ t.held, i = .frame f) ∨ ∃ j, S j ∧ i ∈ t.store.references j

/-- An item is alive when it is among items that keep each other alive. -/
def Live (t : FrameTable) (i : Item) : Prop := ∃ S, t.Keeps S ∧ S i

/-- A live reference to a frame. -/
def Refers (t : FrameTable) (r : Reference) (f : FrameId) : Prop :=
  t.target? r = some f ∧ ∀ i, r.holder? = some i → t.Live i

end FrameTable

/-! ### Items -/

namespace Store

variable {s : Store} {i j : Item} {f g : FrameId}

lemma mem_items : i ∈ s.items ↔ match i with
    | .frame f => f.index < s.frames.size
    | .block b => b.index < s.blocks.size
    | .dict d => d.index < s.dicts.size
    | .channel c => c.index < s.channels.size := by
  simp only [items, List.mem_append, List.mem_map, List.mem_range]
  rcases i with ⟨⟨i⟩⟩ | ⟨⟨i⟩⟩ | ⟨⟨i⟩⟩ | ⟨⟨i⟩⟩ <;> simp

lemma nodup_items : s.items.Nodup := by
  have hmap : ∀ {α : Type} (n : Nat) (name : Nat → α), Function.Injective name →
      ((List.range n).map name).Nodup := fun n _ hname => List.nodup_range.map hname
  simp only [items]
  refine List.Nodup.append (List.Nodup.append (List.Nodup.append ?_ ?_ ?_) ?_ ?_) ?_ ?_
  · exact hmap _ _ fun a b h => by simpa using h
  · exact hmap _ _ fun a b h => by simpa using h
  · intro x hx hy
    simp only [List.mem_map] at hx hy
    obtain ⟨_, _, rfl⟩ := hx
    obtain ⟨_, _, h⟩ := hy
    cases h
  · exact hmap _ _ fun a b h => by simpa using h
  · intro x hx hy
    simp only [List.mem_map, List.mem_append] at hx hy
    obtain ⟨_, _, rfl⟩ := hy
    rcases hx with ⟨_, _, h⟩ | ⟨_, _, h⟩ <;> cases h
  · exact hmap _ _ fun a b h => by simpa using h
  · intro x hx hy
    simp only [List.mem_map, List.mem_append] at hx hy
    obtain ⟨_, _, rfl⟩ := hy
    rcases hx with (⟨_, _, h⟩ | ⟨_, _, h⟩) | ⟨_, _, h⟩ <;> cases h

lemma mem_references : j ∈ s.references i ↔
    (∃ f g, i = .frame f ∧ s.parent? f = some g ∧ j = .frame g) ∨
      ∃ v ∈ s.contents i, v.item? = some j := by
  simp only [references, List.mem_append, List.mem_filterMap]
  refine or_congr ?_ Iff.rfl
  cases i with
  | frame f =>
    simp only [List.mem_map, Option.mem_toList]
    constructor
    · rintro ⟨g, hg, rfl⟩
      exact ⟨f, g, rfl, hg, rfl⟩
    · rintro ⟨f', g, h, hg, rfl⟩
      cases h
      exact ⟨g, hg, rfl⟩
  | _ => exact ⟨fun h => absurd h List.not_mem_nil, fun ⟨_, _, h, _⟩ => by cases h⟩

/-- What is not there refers to nothing. -/
lemma mem_items_of_references (h : j ∈ s.references i) : i ∈ s.items := by
  rw [mem_items]
  by_contra hno
  rcases mem_references.mp h with ⟨f, g, rfl, hp, -⟩ | ⟨v, hv, -⟩
  · simp only [not_lt] at hno
    simp [parent?, frame, Array.getElem?_eq_none hno] at hp
  · cases i <;> simp only [not_lt] at hno <;>
      simp [contents, slots, frame, block, dict, channel, Array.getElem?_eq_none hno] at hv

/-! ### What is in use -/

variable {handles : List FrameId} {among : List Item}

lemma mem_referenced : i ∈ s.referenced handles among ↔
    i ∈ among ∧ ((∃ f ∈ handles, i = .frame f) ∨ ∃ j ∈ among, i ∈ s.references j) := by
  simp only [referenced, List.mem_filter, List.contains_eq_mem, List.mem_append, List.mem_map,
    List.mem_flatMap, decide_eq_true_eq]
  refine and_congr_right fun _ => or_congr_left ?_
  exact exists_congr fun f => and_congr_right fun _ => eq_comm

lemma dropUnreferenced_sublist (n : Nat) :
    (s.dropUnreferenced handles n among).Sublist among := by
  induction n generalizing among with
  | zero => exact .refl _
  | succ n ih =>
    rw [dropUnreferenced]
    split_ifs
    · exact .refl _
    · exact ih.trans List.filter_sublist

/-- Nothing that remains is unreferenced. -/
lemma referenced_dropUnreferenced {n : Nat} (hn : among.length ≤ n) :
    ∀ i ∈ s.dropUnreferenced handles n among,
      i ∈ s.referenced handles (s.dropUnreferenced handles n among) := by
  induction n generalizing among with
  | zero =>
    rw [List.eq_nil_of_length_eq_zero (Nat.le_zero.mp hn), dropUnreferenced]
    exact fun i hi => absurd hi List.not_mem_nil
  | succ n ih =>
    rw [dropUnreferenced]
    split_ifs with hlength
    · intro i hi
      have hall : s.referenced handles among = among := List.filter_sublist.eq_of_length hlength
      rwa [hall]
    · have hle : (s.referenced handles among).length ≤ among.length := List.length_filter_le _ _
      exact ih (by omega)

/-- What keeps itself alive is not dropped. -/
lemma mem_dropUnreferenced {S : Item → Prop} (hS : ∀ i, S i →
      (∃ f ∈ handles, i = .frame f) ∨ ∃ j, S j ∧ i ∈ s.references j)
    (hamong : ∀ i, S i → i ∈ among) (n : Nat) (hi : S i) :
    i ∈ s.dropUnreferenced handles n among := by
  induction n generalizing among with
  | zero => exact hamong i hi
  | succ n ih =>
    rw [dropUnreferenced]
    split_ifs
    · exact hamong i hi
    · refine ih fun j hj => mem_referenced.mpr ⟨hamong j hj, ?_⟩
      exact (hS j hj).imp_right fun ⟨k, hk, hkj⟩ => ⟨k, hamong k hk, hkj⟩

lemma nodup_inUse : (s.inUse handles).Nodup :=
  (dropUnreferenced_sublist _).nodup nodup_items

end Store

namespace FrameTable

variable {t t' : FrameTable} {i j : Item} {f : FrameId}

/-- In use is what is alive. -/
theorem mem_inUse : i ∈ t.store.inUse t.held ↔ t.Live i := by
  constructor
  · intro hi
    refine ⟨(· ∈ t.store.inUse t.held), ⟨?_, ?_⟩, hi⟩
    · exact fun j hj => (Store.dropUnreferenced_sublist _).subset hj
    · intro j hj
      exact (Store.mem_referenced.mp
        (Store.referenced_dropUnreferenced (Nat.le_refl _) j hj)).2
  · rintro ⟨S, hS, hi⟩
    exact Store.mem_dropUnreferenced hS.kept hS.exist _ hi

/-! ### Living items -/

lemma keeps_live (t : FrameTable) : t.Keeps t.Live where
  exist i := fun ⟨_, hS, hi⟩ => hS.exist i hi
  kept i := by
    rintro ⟨S, hS, hi⟩
    exact (hS.kept i hi).imp_right fun ⟨j, hj, hji⟩ => ⟨j, ⟨S, hS, hj⟩, hji⟩

/-- What a living item refers to is alive. -/
lemma Live.of_references (hj : t.Live j) (h : i ∈ t.store.references j)
    (hi : i ∈ t.store.items) : t.Live i := by
  refine ⟨fun k => t.Live k ∨ k = i, ⟨?_, ?_⟩, .inr rfl⟩
  · rintro k (hk | rfl)
    · exact t.keeps_live.exist k hk
    · exact hi
  · rintro k (hk | rfl)
    · exact ((t.keeps_live).kept k hk).imp_right fun ⟨l, hl, hlk⟩ => ⟨l, .inl hl, hlk⟩
    · exact .inr ⟨j, .inl hj, h⟩

lemma live_of_held (h : f ∈ t.held) (hf : f.index < t.store.frames.size) :
    t.Live (.frame f) := by
  refine ⟨fun k => k = .frame f, ⟨?_, ?_⟩, rfl⟩
  · rintro k rfl
    exact Store.mem_items.mpr hf
  · rintro k rfl
    exact .inl ⟨f, h, rfl⟩

/-- With fewer handles and references, no more is alive. -/
lemma Live.mono (h : t'.Live i) (hitems : ∀ i ∈ t'.store.items, i ∈ t.store.items)
    (hheld : ∀ f ∈ t'.held, f ∈ t.held)
    (hrefs : ∀ i, ∀ j ∈ t'.store.references i, j ∈ t.store.references i) : t.Live i := by
  obtain ⟨S, hS, hi⟩ := h
  refine ⟨S, ⟨fun j hj => hitems j (hS.exist j hj), fun j hj => ?_⟩, hi⟩
  exact (hS.kept j hj).imp (fun ⟨f, hf, hj⟩ => ⟨f, hheld f hf, hj⟩)
    fun ⟨k, hk, hkj⟩ => ⟨k, hk, hrefs k j hkj⟩

/-! ### References to frames -/

lemma mem_held : f ∈ t.held ↔ ∃ n, t.frame? n = some f := by
  have hmem : f ∈ t.held ↔ some f ∈ t.handles.toList := by
    rw [held, List.mem_filterMap]
    exact ⟨fun ⟨_, ha, he⟩ => he ▸ ha, fun h => ⟨_, h, rfl⟩⟩
  simp only [hmem, List.mem_iff_getElem?, Array.getElem?_toList, frame?, Option.join_eq_some_iff]

/-- A closure over the frame is somewhere among the values. -/
lemma exists_env {vs : List Value} :
    (∃ v ∈ vs, v.item? = some (.frame f)) ↔ ∃ i : Nat, vs[i]?.bind Value.env? = some f := by
  simp only [List.mem_iff_getElem?, Option.bind_eq_some_iff, Value.item?_eq_frame]
  constructor
  · rintro ⟨v, ⟨i, hi⟩, hv⟩
    exact ⟨i, v, hi, hv⟩
  · rintro ⟨i, v, hi, hv⟩
    exact ⟨v, ⟨i, hi⟩, hv⟩

lemma exists_env_array {vs : Array Value} :
    (∃ v ∈ vs.toList, v.item? = some (.frame f)) ↔ ∃ i : Nat, vs[i]?.bind Value.env? = some f := by
  simp only [exists_env, Array.getElem?_toList]

/-- A closure over the frame is somewhere among the entries, as a key or as a value. -/
lemma exists_env_entries {es : List (Value × Value)} :
    (∃ v ∈ es.flatMap fun (k, v) => [k, v], v.item? = some (.frame f)) ↔
      ∃ i : Nat, es[i]?.bind (fun e => e.1.env?) = some f ∨
        es[i]?.bind (fun e => e.2.env?) = some f := by
  simp only [List.mem_flatMap, Option.bind_eq_some_iff, Value.item?_eq_frame, List.mem_cons,
    List.not_mem_nil, or_false]
  constructor
  · rintro ⟨v, ⟨e, he, hv⟩, henv⟩
    obtain ⟨i, hi⟩ := List.mem_iff_getElem?.mp he
    rcases hv with rfl | rfl
    · exact ⟨i, .inl ⟨e, hi, henv⟩⟩
    · exact ⟨i, .inr ⟨e, hi, henv⟩⟩
  · rintro ⟨i, ⟨e, hi, henv⟩ | ⟨e, hi, henv⟩⟩
    · exact ⟨e.1, ⟨e, List.mem_of_getElem? hi, .inl rfl⟩, henv⟩
    · exact ⟨e.2, ⟨e, List.mem_of_getElem? hi, .inr rfl⟩, henv⟩

/-- An item refers to a frame by one of the references that it holds. -/
lemma mem_references_frame : .frame f ∈ t.store.references i ↔
    ∃ r : Reference, r.holder? = some i ∧ t.target? r = some f := by
  rw [Store.mem_references]
  constructor
  · rintro (⟨g, g', rfl, hp, h⟩ | hv)
    · cases h
      exact ⟨.outer g, rfl, hp⟩
    · cases i with
      | frame g =>
        obtain ⟨k, hk⟩ := exists_env_array.mp hv
        exact ⟨.slot g k, rfl, hk⟩
      | block b =>
        obtain ⟨k, hk⟩ := exists_env_array.mp hv
        exact ⟨.element b k, rfl, hk⟩
      | dict d =>
        obtain ⟨k, hk | hk⟩ := exists_env_entries.mp hv
        · exact ⟨.key d k, rfl, hk⟩
        · exact ⟨.entry d k, rfl, hk⟩
      | channel c =>
        obtain ⟨k, hk⟩ := exists_env.mp hv
        exact ⟨.buffered c k, rfl, hk⟩
  · rintro ⟨r, hr, ht⟩
    cases r with
    | handle n => cases hr
    | outer g =>
      cases hr
      exact .inl ⟨g, f, rfl, ht, rfl⟩
    | slot g k =>
      cases hr
      exact .inr (exists_env_array.mpr ⟨k, ht⟩)
    | element b k =>
      cases hr
      exact .inr (exists_env_array.mpr ⟨k, ht⟩)
    | key d k =>
      cases hr
      exact .inr (exists_env_entries.mpr ⟨k, .inl ht⟩)
    | entry d k =>
      cases hr
      exact .inr (exists_env_entries.mpr ⟨k, .inr ht⟩)
    | buffered c k =>
      cases hr
      exact .inr (exists_env.mpr ⟨k, ht⟩)

end FrameTable

end Flowgraph
