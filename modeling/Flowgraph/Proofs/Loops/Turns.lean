import Mathlib.Tactic.Common
import Flowgraph.Proofs.Loops.Cursors

/-!
# Turns of a loop over a map

When a loop over a map is under way, its cursor is private to the position slot. What disregards
this slot leaves the cursor alone, and a visit takes the first key that is left and present, or ends
the loop when there is none.
-/

namespace Flowgraph

open Named

variable {H : BlockId → Prop} {s t u : Store} {f : FrameId} {i j : Nat} {v w : Value}
  {d : DictId} {K : List Value} {r : Cursor}

/-! ### What is secluded when a visit stores its results -/

namespace Store

lemma setSlot_setSlot (s : Store) (f : FrameId) (i : Nat) (v w : Value) :
    (s.setSlot f i v).setSlot f i w = s.setSlot f i w := by
  refine congrArg (fun frames => { s with frames := frames }) (Array.ext_getElem? fun k => ?_)
  simp only [setSlot, Array.getElem?_modify]
  split_ifs
  · rw [Option.map_map]
    refine congrArg (Option.map · _) (funext fun fr => ?_)
    simp only [Function.comp_apply, Array.setIfInBounds_setIfInBounds]
  · rfl

/-- The blocks hold the same in another store. -/
lemma Secludes.trans (h : t.Secludes H s) (hu : ∀ b, H b → t.block b = u.block b) :
    u.Secludes H s := ⟨h.elsewhere, h.block, h.there, fun b hb => (h.same b hb).trans (hu b hb)⟩

/-- One of the blocks changes, and nothing else. -/
lemma Secludes.setElement_own {b : BlockId} (h : t.Secludes H s) (hb : H b) (j : Nat) (w : Value) :
    (t.setElement b j w).Secludes H (s.setElement b j w) where
  elsewhere := h.elsewhere
  block c hc v hv := by
    have hne : c ≠ b := by
      rintro rfl
      exact hc hb
    rw [block_setElement, if_neg hne] at hv
    exact h.block c hc v hv
  there c hc := by
    rw [Store.setElement, Array.size_modify]
    exact h.there c hc
  same c hc := by rw [block_setElement, block_setElement, h.same c hc]

/-- It does not matter what is written to the slot that leads to the blocks. -/
lemma Secludes.write (h : t.Secludes H (s.setSlot f i .nil)) {l : Option Site}
    (hw : l = some (f, i) ∨ w.Avoids H) : t.Secludes H ((s.write l w).setSlot f i .nil) := by
  cases l with
  | none => exact h
  | some l =>
    by_cases hl : l = (f, i)
    · subst hl
      rw [Store.write, setSlot_setSlot]
      exact h
    · have havoids := hw.resolve_left fun he => hl (Option.some.inj he)
      have hcomm : (s.write (some l) w).setSlot f i .nil = (s.setSlot f i .nil).setSlot l.1 l.2 w :=
        setSlot_comm (fun hf hi => hl (Prod.ext hf.symm hi.symm)) w .nil
      rw [hcomm]
      exact h.setSlot l.1 l.2 havoids

lemma Secludes.writeAll {ws : List (Option Site × Value)} (h : t.Secludes H (s.setSlot f i .nil))
    (hws : ∀ e ∈ ws, e.1 = some (f, i) ∨ e.2.Avoids H) :
    t.Secludes H ((s.writeAll ws).setSlot f i .nil) := by
  induction ws generalizing s with
  | nil => exact h
  | cons e ws ih =>
    exact ih (h.write (hws e List.mem_cons_self)) fun e' he' => hws e' (List.mem_cons_of_mem e he')

end Store

namespace Loop

variable {L : Loop} {m m' : Machine} {key value : Value}

/-! ### Loops under way -/

/-- A loop over a map is under way: the position slot holds its cursor, which has come to so many
keys, and nothing else refers to the blocks of the cursor. -/
structure Keeps (L : Loop) (r : Cursor) (K : List Value) (i : Nat) (m : Machine) : Prop where
  fits : m.Fits
  position : m.store.slot? L.frame (L.slot + 1) = some (.struct r.place)
  stands : r.Stands K i m.store
  secluded : (m.putSlot L.frame (L.slot + 1) .nil).Secludes r.Owns m.store
  keys : ∀ k ∈ K, k.Avoids r.Owns

/-- Only the position slot leads to the cursor. -/
lemma Keeps.isPrivate (h : L.Keeps r K i m) : m.Private L.frame (L.slot + 1) r.Owns where
  led b hb := by
    rcases hb with rfl | rfl
    · exact ⟨_, _, h.position, .given (List.mem_singleton.mpr rfl), rfl, rfl⟩
    · refine ⟨_, .slice r.keys, h.position, .held (i := .block r.place)
        (.given (List.mem_singleton.mpr rfl)) rfl ?_, rfl, rfl⟩
      change Value.slice r.keys ∈ (m.store.block r.place).toList
      rw [h.stands.place]
      exact List.mem_cons_of_mem _ List.mem_cons_self
  secluded := h.secluded

/-- Whoever disregards the position slot leaves the loop alone. -/
theorem Keeps.disregards (h : L.Keeps r K i m) (hp : m.program.Loaded)
    (hn : m.program.natives.Modest) (hd : m.Disregards L.frame (L.slot + 1) m') :
    L.Keeps r K i m' := by
  have hsecluded := hd.secludes hp hn h.fits h.position h.isPrivate
  have hsame : ∀ b, r.Owns b → m'.store.block b = m.store.block b := hsecluded.store.same
  exact {
    fits := hd.fits h.fits
    position := hd.slot? h.fits h.position
    stands := h.stands.of_blocks hsame
    secluded := ⟨hsecluded.store.trans fun b hb => (hsame b hb).symm, hsecluded.chains⟩
    keys := h.keys }

/-- A visit of a loop over a map has its cursor, in the store `u`. -/
structure Poised (L : Loop) (r : Cursor) (K : List Value) (i : Nat) (d : DictId) (m : Machine)
    (u : Store) : Prop where
  fits : m.Fits
  cursor : Op.cursor d (L.position m.store) m.store = .ok r.place u
  beside : m.store.Beside r.Owns u
  stands : r.Stands K i u
  secluded : u.Secludes r.Owns (u.setSlot L.frame (L.slot + 1) .nil)
  chains : ∀ x c, m.chain? x = some c → c.Avoids r.Owns
  keys : ∀ k ∈ K, k.Avoids r.Owns

lemma Keeps.poised (h : L.Keeps r K i m) (d : DictId) : L.Poised r K i d m m.store where
  fits := h.fits
  cursor := by
    rw [Loop.position, h.position]
    rfl
  beside := .refl r.Owns m.store
  stands := h.stands
  secluded := h.secluded.store
  chains := h.secluded.chains
  keys := h.keys

/-- The position with which a loop over a map begins. -/
def Fresh (L : Loop) (s : Store) : Prop := L.position s = .nil ∨ L.position s = .int 0

/-- A loop that begins has a new cursor over the keys that the map has now. -/
lemma Fresh.poised (h : L.Fresh m.store) (hm : m.Kept) (hfit : m.Fits) (d : DictId) :
    L.Poised m.store.nextCursor (m.store.dict d).keys 0 d m
      (m.store.withCursor (m.store.dict d).keys) := by
  have hwithin : ∀ v : Value, Within m.store.size v → v.Avoids m.store.nextCursor.Owns :=
    fun v hv => Value.avoids_of_within hv fun _ => Store.size_le_of_owns
  have hsecluded := hm.grounded.store.secludes_withCursor (m.store.dict d).keys
  exact {
    fits := hfit
    cursor := Op.cursor_start h
    beside := m.store.beside_withCursor _
    stands := m.store.stands_withCursor _
    secluded := hsecluded.setSlot L.frame (L.slot + 1) (Value.avoids_plain rfl)
    chains := fun x c hc => Chain.avoids_of_mentions fun b hb hk =>
      absurd (hm.grounded.chains x c hc .blocks b.index hk)
        (Nat.not_lt.mpr (Store.size_le_of_owns hb))
    keys := fun k hk => by
      obtain ⟨e, he, rfl⟩ := List.mem_map.mp (List.mem_reverse.mp hk)
      exact ((hm.grounded.store.holds hwithin).dict d e he).1 }

/-! ### Visits -/

/-- A visit takes a key: it stores the key and the value of the key. Besides what is stored, only
the cursor has changed. -/
def Takes (L : Loop) (r : Cursor) (m m' : Machine) (key value : Value) : Prop :=
  ∃ u, m.store.Beside r.Owns u ∧ L.Yields m.program u m'.store key value (.struct r.place) ∧
    L.Leaves m m' true

/-- A visit finds no key, and ends the loop. -/
def Ends (L : Loop) (r : Cursor) (m m' : Machine) : Prop :=
  ∃ u, m.store.Beside r.Owns u ∧ L.Finishes u m'.store ∧ L.Leaves m m' false

lemma Takes.told (h : L.Takes r m m' key value) :
    m'.store.slot? L.frame L.slot = some (.bool true) := by
  obtain ⟨u, -, hyields, -⟩ := h
  exact hyields.flag

lemma Ends.position (h : L.Ends r m m') : L.position m'.store = .nil := by
  obtain ⟨u, -, hfinishes, -⟩ := h
  exact hfinishes.position

namespace Poised

/-- A visit finds the first key that is left and present. -/
lemma iteration_eq (h : L.Poised r K i d m u) (hi : i < 2 ^ 63) :
    iteration (.map d) (L.position m.store) m.store =
      match (m.store.dict d).firstPresent? (K.drop i) with
      | some (k, v, n) =>
        .ok (.visit k v (.struct r.place)) (u.setElement r.place 0 (.ofNat (i + n)))
      | none => .ok .finished u := by
  have hresume := h.stands.resume (d := d) hi
  rw [h.beside.dict] at hresume
  exact (Op.iterateMap_apply h.cursor).trans hresume

/-- A visit that takes a key leaves the loop under way. -/
lemma keeps (h : L.Poised r K i d m u) (hreached : L.Reached m) {n : Nat}
    (hperform : m.program.perform L.frame L.node m.store = .ok .done s)
    (hyields : L.Yields m.program (u.setElement r.place 0 (.ofNat n)) s key value (.struct r.place))
    (hkey : key.Avoids r.Owns) (hvalue : value.Avoids r.Owns)
    (hsize : L.slot + 1 < m.store.frameSize L.frame) :
    L.Keeps r K n (m.step (.run L.chain)) := by
  obtain ⟨c, hc, hstep⟩ := hreached.step_eq hperform
  have hposition := hyields.position
  obtain ⟨kt, vt, hkt, hvt, hstored⟩ := hyields
  have hblocks : s.blocks = (u.setElement r.place 0 (.ofNat n)).blocks := by rw [hstored.beside]
  have hblock : ∀ b, s.block b = (u.setElement r.place 0 (.ofNat n)).block b := fun b => by
    rw [Store.block, Store.block, hblocks]
  have hsize' := Machine.frameSize_step h.fits hsize (.run L.chain)
  -- The only value among those stored that refers to the cursor goes to the position slot.
  have hsecluded : s.Secludes r.Owns (s.setSlot L.frame (L.slot + 1) .nil) := by
    have hown := h.secluded.setElement_own (.inl rfl : r.Owns r.place) 0 (.ofNat n)
    have havoids : ∀ e ∈ [kt, vt, some (L.frame, L.slot + 1), some (L.frame, L.slot)].zip
        [key, value, .struct r.place, .bool true],
        e.1 = some (L.frame, L.slot + 1) ∨ e.2.Avoids r.Owns := by
      intro e he
      simp only [List.zip_cons_cons, List.zip_nil_right, List.mem_cons, List.not_mem_nil,
        or_false] at he
      rcases he with rfl | rfl | rfl | rfl
      · exact .inr hkey
      · exact .inr hvalue
      · exact .inl rfl
      · exact .inr (Value.avoids_plain rfl)
    have hwrites := Store.Secludes.writeAll (s := u.setElement r.place 0 (.ofNat n)) hown havoids
    rw [← hstored.eq] at hwrites
    exact hwrites.trans fun b _ => (hblock b).symm
  have hstore : (m.step (.run L.chain)).store = s := by rw [hstep]; rfl
  constructor
  case fits => exact h.fits.step _
  case position => rw [position_eq hsize', hstore, hposition]
  case stands =>
    rw [hstore]
    exact (h.stands.setElement n).of_blocks fun b _ => hblock b
  case secluded =>
    constructor
    · rw [Machine.putSlot, Machine.mapStore, hstore]
      exact hsecluded
    · intro x e he
      rw [hstep] at he
      rcases Machine.of_chain?_setChain he with he | ⟨-, rfl⟩
      · exact h.chains x e he
      · exact ⟨(h.chains _ c hc).walks, trivial⟩
  case keys => exact h.keys

/-- A visit takes the first key that is left and present, or none is. -/
theorem visit (h : L.Poised r K i d m u) (hreached : L.Reached m)
    (hready : L.Ready m.program m.store (.map d)) (hi : i < 2 ^ 63) :
    (∃ a key value, i ≤ a ∧ K[a]? = some key ∧ (m.store.dict d).get? key = some value ∧
      (∀ b k, i ≤ b → b < a → K[b]? = some k → (m.store.dict d).get? k = none) ∧
      L.Takes r m (m.step (.run L.chain)) key value ∧
      L.Keeps r K (a + 1) (m.step (.run L.chain))) ∨
    (∀ b k, i ≤ b → K[b]? = some k → (m.store.dict d).get? k = none) ∧
      L.Ends r m (m.step (.run L.chain)) := by
  have hfound := h.iteration_eq hi
  have hframes : u.frames = m.store.frames := by rw [h.beside.1]
  cases hfirst : (m.store.dict d).firstPresent? (K.drop i) with
  | some found =>
    obtain ⟨key, value, n⟩ := found
    obtain ⟨a, rfl, hkey, hvalue, hbefore⟩ := Dict.firstPresent?_eq_some hfirst
    rw [List.getElem?_drop] at hkey
    rw [hfirst] at hfound
    obtain ⟨s, hperform, hyields⟩ := perform_of_visit hready hfound hframes
    obtain ⟨hs, hleaves⟩ := hreached.leaves hready.node hperform hyields.flag
    have hvalues : value.Avoids r.Owns := by
      obtain ⟨e, he, rfl⟩ := Option.map_eq_some_iff.mp hvalue
      have hmem : e ∈ (u.dict d).entries := by
        rw [h.beside.dict]
        exact List.mem_of_find?_eq_some he
      exact (h.secluded.elsewhere.dict d e hmem).2
    have hbeside : m.store.Beside r.Owns (u.setElement r.place 0 (.ofNat (i + (a + 1)))) :=
      h.beside.setElement (.inl rfl) 0 _
    have hkeeps := h.keeps hreached hperform hyields (h.keys key (List.mem_of_getElem? hkey))
      hvalues hready.size
    refine .inl ⟨i + a, key, value, Nat.le_add_right i a, hkey, hvalue, fun b k hb hlt hk => ?_,
      ⟨_, hbeside, ?_, hleaves⟩, hkeeps⟩
    · refine hbefore (b - i) (by omega) k ?_
      rw [List.getElem?_drop, Nat.add_sub_cancel' hb, hk]
    · rw [hs]
      exact hyields
  | none =>
    rw [hfirst] at hfound
    obtain ⟨s, hperform, hfinishes⟩ := perform_of_finished hready hfound hframes
    obtain ⟨hs, hleaves⟩ := hreached.leaves hready.node hperform hfinishes.flag
    refine .inr ⟨fun b k hb hk => ?_, u, h.beside, ?_, hleaves⟩
    · refine Dict.firstPresent?_eq_none hfirst k (List.mem_of_getElem? (i := b - i) ?_)
      rw [List.getElem?_drop, Nat.add_sub_cancel' hb, hk]
    · rw [hs]
      exact hfinishes

end Poised

end Loop

end Flowgraph
