import Mathlib.Tactic.Common
import Flowgraph.Proofs.Loops.Aside
import Flowgraph.Proofs.Loops.Sequences

/-!
# Cursors

A loop over a map notes in two blocks which keys the map had when the loop began, and which of them
comes next. Only the position slot leads to these blocks, so that whoever disregards the slot leaves
them alone, whatever becomes of the map meanwhile. In a visit, the first key that is left and still
in the map is taken.
-/

namespace Flowgraph

open Named

variable {H : BlockId → Prop} {s t u : Store} {d : DictId} {K : List Value} {i n : Nat}
  {w key value : Value}

/-! ### The first key that is present -/

namespace Dict

variable {D : Dict} {ks : List Value}

lemma firstPresent?_eq_some (h : D.firstPresent? ks = some (key, value, n)) :
    ∃ a, n = a + 1 ∧ ks[a]? = some key ∧ D.get? key = some value ∧
      ∀ b < a, ∀ k, ks[b]? = some k → D.get? k = none := by
  induction ks generalizing n with
  | nil => cases h
  | cons k ks ih =>
    rw [firstPresent?] at h
    cases hk : D.get? k with
    | some v =>
      rw [hk] at h
      cases h
      exact ⟨0, rfl, rfl, hk, fun b hb => absurd hb (Nat.not_lt_zero b)⟩
    | none =>
      rw [hk] at h
      obtain ⟨⟨k', v', n'⟩, hrest, he⟩ := Option.map_eq_some_iff.mp h
      cases he
      obtain ⟨a, rfl, hkey, hvalue, hbefore⟩ := ih hrest
      refine ⟨a + 1, rfl, hkey, hvalue, fun b hb k' hk' => ?_⟩
      cases b with
      | zero =>
        cases hk'
        exact hk
      | succ b => exact hbefore b (Nat.lt_of_succ_lt_succ hb) k' hk'

lemma firstPresent?_eq_none (h : D.firstPresent? ks = none) : ∀ k ∈ ks, D.get? k = none := by
  induction ks with
  | nil => exact fun k hk => absurd hk List.not_mem_nil
  | cons k ks ih =>
    rw [firstPresent?] at h
    cases hk : D.get? k with
    | some v =>
      rw [hk] at h
      cases h
    | none =>
      rw [hk] at h
      intro k' hk'
      rcases List.mem_cons.mp hk' with rfl | hk'
      · exact hk
      · exact ih (Option.map_eq_none_iff.mp h) k' hk'

end Dict

/-! ### Cursors and their blocks -/

/-- The blocks of a cursor. -/
structure Cursor where
  /-- It holds the number of the next key, and the keys. -/
  place : BlockId
  /-- It holds the keys themselves. -/
  keys : BlockId

namespace Cursor

variable {r : Cursor}

/-- The blocks that a cursor is made of. -/
def Owns (r : Cursor) (b : BlockId) : Prop := b = r.place ∨ b = r.keys

/-- The cursor is over some keys, so many of which have had their turn. -/
structure Stands (r : Cursor) (K : List Value) (i : Nat) (s : Store) : Prop where
  place : s.block r.place = #[.ofNat i, .slice r.keys]
  keys : s.block r.keys = K.toArray
  apart : r.place ≠ r.keys

lemma Stands.of_blocks (h : r.Stands K i s) (hb : ∀ b, r.Owns b → t.block b = s.block b) :
    r.Stands K i t where
  place := (hb _ (.inl rfl)).trans h.place
  keys := (hb _ (.inr rfl)).trans h.keys
  apart := h.apart

/-- The cursor moves on. -/
lemma Stands.setElement (h : r.Stands K i s) (n : Nat) :
    r.Stands K n (s.setElement r.place 0 (.ofNat n)) where
  place := by
    rw [Store.block_setElement, if_pos rfl, h.place]
    rfl
  keys := by rw [Store.block_setElement, if_neg h.apart.symm, h.keys]
  apart := h.apart

end Cursor

/-! ### Iteration -/

/-- A visit of a map, once there is a cursor. -/
def Op.resume (d : DictId) (cursor : BlockId) : Op Iteration := do
  let keys ← (← Look.element cursor 1).asBlock "range"
  let next ← (← Look.element cursor 0).asInt "range"
  if next.toInt < 0 then
    return .finished
  let s ← get
  match (s.dict d).firstPresent? ((s.block keys).toList.drop next.toInt.toNat) with
  | some (k, v, n) =>
    modify fun s => s.setElement cursor 0 (.ofNat (next.toInt.toNat + n))
    return .visit k v (.struct cursor)
  | none => return .finished

lemma Op.iterateMap_apply {c : BlockId} (h : Op.cursor d w s = .ok c u) :
    Op.iterateMap d w s = Op.resume d c u := by
  rw [Op.iterateMap, Op.bind_apply, h]
  rfl

/-- A visit finds the first key that is left and present. -/
lemma Cursor.Stands.resume {r : Cursor} (h : r.Stands K i s) (hi : i < 2 ^ 63) :
    Op.resume d r.place s = match (s.dict d).firstPresent? (K.drop i) with
      | some (k, v, n) =>
        .ok (.visit k v (.struct r.place)) (s.setElement r.place 0 (.ofNat (i + n)))
      | none => .ok .finished s := by
  have hkeys : Look.element r.place 1 s = .ok (.slice r.keys) := by
    rw [Look.element, h.place]
    rfl
  have hplace : Look.element r.place 0 s = .ok (.ofNat i) := by
    rw [Look.element, h.place]
    rfl
  rw [Op.resume, Op.look_bind_apply, hkeys]
  dsimp only
  rw [Op.except_bind_apply, Value.asBlock]
  dsimp only
  rw [Op.look_bind_apply, hplace]
  dsimp only
  rw [Op.except_bind_apply, Value.ofNat, Value.asInt]
  dsimp only
  rw [toInt_saturate hi, if_neg (by omega), Op.bind_apply, Op.get_apply]
  dsimp only
  rw [h.keys, List.toList_toArray, Int.toNat_natCast]
  cases (s.dict d).firstPresent? (K.drop i) with
  | none => rfl
  | some found => rfl

/-! ### A new cursor -/

/-- A store has changed in some blocks only. -/
def Store.Beside (H : BlockId → Prop) (s u : Store) : Prop :=
  u = { s with blocks := u.blocks } ∧ ∀ b, ¬H b → u.block b = s.block b

lemma Store.Beside.refl (H : BlockId → Prop) (s : Store) : s.Beside H s := ⟨rfl, fun _ _ => rfl⟩

lemma Store.Beside.dict (h : s.Beside H u) (d : DictId) : u.dict d = s.dict d := by
  rw [h.1]
  rfl

lemma Store.Beside.setElement (h : s.Beside H u) {b : BlockId} (hb : H b) (i : Nat) (v : Value) :
    s.Beside H (u.setElement b i v) := by
  constructor
  · rw [h.1]
    rfl
  · intro c hc
    have hne : c ≠ b := by
      rintro rfl
      exact hc hb
    rw [block_setElement, if_neg hne, h.2 c hc]

/-- The cursor that comes next. -/
def Store.nextCursor (s : Store) : Cursor := ⟨⟨s.blocks.size + 1⟩, ⟨s.blocks.size⟩⟩

/-- The store with a new cursor over some keys. -/
def Store.withCursor (s : Store) (K : List Value) : Store :=
  ((s.newBlock K.toArray).2.newBlock #[.int 0, .slice s.nextCursor.keys]).2

lemma Store.block_withCursor (s : Store) (K : List Value) (b : BlockId) :
    (s.withCursor K).block b = if b.index = s.blocks.size + 1
      then #[.int 0, .slice s.nextCursor.keys]
      else if b.index = s.blocks.size then K.toArray else s.block b := by
  rw [withCursor, block_newBlock, block_newBlock, newBlock, Array.size_push]

lemma Store.stands_withCursor (s : Store) (K : List Value) :
    s.nextCursor.Stands K 0 (s.withCursor K) where
  place := by
    have hzero : Value.ofNat 0 = .int 0 := congrArg Value.int (by rw [saturate, Nat.zero_min]; rfl)
    rw [hzero, block_withCursor]
    exact if_pos rfl
  keys := by
    rw [block_withCursor]
    exact (if_neg (Nat.ne_of_lt (Nat.lt_succ_self _))).trans (if_pos rfl)
  apart h := Nat.succ_ne_self _ (BlockId.mk.inj h)

lemma Store.beside_withCursor (s : Store) (K : List Value) :
    s.Beside s.nextCursor.Owns (s.withCursor K) := by
  refine ⟨rfl, fun b hb => ?_⟩
  rw [block_withCursor, if_neg fun he => hb (.inl (congrArg BlockId.mk he)),
    if_neg fun he => hb (.inr (congrArg BlockId.mk he))]

/-- The blocks of a new cursor are new. -/
lemma Store.size_le_of_owns {b : BlockId} (hb : s.nextCursor.Owns b) : s.blocks.size ≤ b.index := by
  rcases hb with rfl | rfl
  · exact Nat.le_succ _
  · exact Nat.le_refl _

/-- At the start, a new cursor is made over the keys of the map. -/
lemma Op.cursor_start (hw : w = .nil ∨ w = .int 0) :
    Op.cursor d w s = .ok s.nextCursor.place (s.withCursor (s.dict d).keys) := by
  have hplace : (⟨(s.blocks.push (s.dict d).keys.toArray).size⟩ : BlockId) = s.nextCursor.place :=
    congrArg BlockId.mk (Array.size_push _)
  rcases hw with rfl | rfl
  all_goals
    rw [← hplace]
    rfl

/-- A new cursor is secluded. -/
lemma Store.Closed.secludes_withCursor (h : s.Closed) (K : List Value) :
    (s.withCursor K).Secludes s.nextCursor.Owns (s.withCursor K) := by
  have hwithin : ∀ v : Value, Within s.size v → v.Avoids s.nextCursor.Owns := fun v hv =>
    Value.avoids_of_within hv fun _ => size_le_of_owns
  have hholds := h.holds hwithin
  constructor
  case elsewhere =>
    refine ⟨hholds.slots, fun b v hv => ?_, hholds.dict, hholds.buffer⟩
    exact absurd hv (by simp [Store.block])
  case block =>
    intro b hb v hv
    rw [block_withCursor, if_neg fun he => hb (.inl (congrArg BlockId.mk he)),
      if_neg fun he => hb (.inr (congrArg BlockId.mk he))] at hv
    exact hholds.block b v hv
  case there =>
    rintro b (rfl | rfl) <;>
      simp only [withCursor, newBlock, nextCursor, Array.size_push] <;> omega
  case same => exact fun _ _ => rfl

end Flowgraph
