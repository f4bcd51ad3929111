import Flowgraph.Proofs.Release.Criterion

/-!
# Released frames

A frame that is released is reached by nobody but its own handle. Its slots become nil, and
everything else stays what it is. Without the handle it is dead, and its parent is referred to by
one less.
-/

namespace Flowgraph

/-! ### Cleared frames -/

namespace Store

variable {s : Store} {f g : FrameId} {i j : Item}

lemma frame_clearFrame (f g : FrameId) : (s.clearFrame f).frame g =
    if g = f then { s.frame g with slots := (s.slots g).map fun _ => .nil } else s.frame g :=
  frame_modify (by simp) f g

lemma slot?_clearFrame_self (f : FrameId) (k : Nat) :
    (s.clearFrame f).slot? f k = (s.slot? f k).map fun _ => .nil := by
  rw [slot?, slots, frame_clearFrame, if_pos rfl]
  exact Array.getElem?_map

lemma slot?_clearFrame_of_ne (h : g ≠ f) (k : Nat) :
    (s.clearFrame f).slot? g k = s.slot? g k := by
  rw [slot?, slots, frame_clearFrame, if_neg h]
  rfl

@[simp] lemma parent?_clearFrame (f g : FrameId) : (s.clearFrame f).parent? g = s.parent? g := by
  rw [parent?, frame_clearFrame]
  split_ifs <;> rfl

lemma contents_clearFrame_of_ne (h : i ≠ .frame f) :
    (s.clearFrame f).contents i = s.contents i := by
  cases i with
  | frame g =>
    rw [contents, slots, frame_clearFrame, if_neg fun he => h (congrArg Item.frame he)]
    rfl
  | _ => rfl

lemma references_clearFrame_of_ne (h : i ≠ .frame f) :
    (s.clearFrame f).references i = s.references i := by
  cases i with
  | frame g => simp only [references, parent?_clearFrame, contents_clearFrame_of_ne h]
  | _ => rfl

/-- A cleared frame refers to its parent and to nothing else. -/
lemma mem_references_clearFrame_self : j ∈ (s.clearFrame f).references (.frame f) ↔
    ∃ p, s.parent? f = some p ∧ j = .frame p := by
  rw [mem_references]
  constructor
  · rintro (⟨g, p, h, hp, rfl⟩ | ⟨v, hv, hj⟩)
    · cases h
      exact ⟨p, parent?_clearFrame f f ▸ hp, rfl⟩
    · rw [contents, slots, frame_clearFrame, if_pos rfl, Array.toList_map] at hv
      obtain ⟨w, -, rfl⟩ := List.mem_map.mp hv
      cases hj
  · rintro ⟨p, hp, rfl⟩
    exact .inl ⟨f, p, rfl, (parent?_clearFrame f f).trans hp, rfl⟩

lemma items_clearFrame (f : FrameId) : (s.clearFrame f).items = s.items := by
  simp only [items, clearFrame, Array.size_modify]

/-- A frame reaches another by parent links, closures and containers. -/
def Reaches (s : Store) (g f : FrameId) : Prop :=
  Relation.ReflTransGen (fun i j => j ∈ s.references i) (.frame g) (.frame f)

end Store

namespace FrameTable

variable {t : FrameTable} {n k : Nat} {f g p : FrameId} {r : Reference} {i j : Item}

/-! ### What a release does -/

/-- The table with the slots of a frame set to nil. -/
def cleared (t : FrameTable) (f : FrameId) : FrameTable :=
  { t with store := t.store.clearFrame f }

lemma release_false (h : (t.release f).1 = false) : (t.release f).2 = t := by
  simp only [release, Store.release] at h ⊢
  split_ifs at h ⊢
  rfl

lemma release_true (h : (t.release f).1 = true) : (t.release f).2 = t.cleared f := by
  simp only [release, Store.release] at h ⊢
  split_ifs at h ⊢
  rfl

lemma references_cleared (h : j ∈ (t.cleared f).store.references i) : j ∈ t.store.references i := by
  by_cases hi : i = .frame f
  · subst hi
    obtain ⟨p, hp, rfl⟩ := Store.mem_references_clearFrame_self.mp h
    exact Store.mem_references.mpr (.inl ⟨f, p, rfl, hp, rfl⟩)
  · exact Store.references_clearFrame_of_ne hi ▸ h

lemma Live.of_cleared (h : (t.cleared f).Live i) : t.Live i :=
  h.mono (fun _ hi => Store.items_clearFrame f ▸ hi) (fun _ hf => hf) fun _ _ => references_cleared

/-! ### Frames that are alone -/

lemma frame?_drop (n k : Nat) : (t.drop n).frame? k = if n = k then none else t.frame? k := by
  simp only [frame?, drop, Array.getElem?_setIfInBounds]
  split_ifs <;> rfl

lemma held_drop (h : f ∈ (t.drop n).held) : f ∈ t.held := by
  obtain ⟨k, hk⟩ := mem_held.mp h
  rw [frame?_drop] at hk
  split_ifs at hk
  exact mem_held.mpr ⟨k, hk⟩

lemma Live.of_drop (h : (t.drop n).Live i) : t.Live i :=
  h.mono (fun _ hi => hi) (fun _ => held_drop) fun _ _ hr => hr

/-- Without a handle, the references to other frames are the same. -/
lemma target?_drop_iff (hn : t.frame? n ≠ some p) :
    (t.drop n).target? r = some p ↔ t.target? r = some p := by
  cases r with
  | handle k =>
    rw [target?, target?, frame?_drop]
    split_ifs with hk
    · subst hk
      exact iff_of_false nofun hn
    · exact Iff.rfl
  | _ => exact Iff.rfl

/-- A cleared frame refers to others only by its link to its parent. -/
lemma eq_outer_of_cleared (hr : (t.cleared f).target? r = some p)
    (hf : r.holder? = some (.frame f)) : r = .outer f := by
  cases r with
  | outer g =>
    cases hf
    rfl
  | slot g k =>
    cases hf
    change ((t.store.clearFrame f).slot? f k).bind Value.env? = some p at hr
    rw [Store.slot?_clearFrame_self] at hr
    cases hs : t.store.slot? f k <;> rw [hs] at hr <;> cases hr
  | _ => cases hf

/-- Without the handle of a frame, whatever else refers to its parent is still alive: it takes the
place of the frame's own link. -/
lemma live_drop (hn : t.frame? n = some f) (hp : t.store.parent? f = some p)
    (hi : (t.cleared f).Live i) (hif : i ≠ .frame f)
    (hrefers : .frame p ∈ (t.cleared f).store.references i) : ((t.cleared f).drop n).Live i := by
  refine ⟨fun j => (t.cleared f).Live j ∧ j ≠ .frame f, ⟨?_, ?_⟩, hi, hif⟩
  · exact fun j hj => (t.cleared f).keeps_live.exist j hj.1
  · rintro j ⟨hj, hjf⟩
    rcases (t.cleared f).keeps_live.kept j hj with ⟨g, hg, rfl⟩ | ⟨k, hk, hkj⟩
    · left
      obtain ⟨k, hk⟩ := mem_held.mp hg
      have hkn : n ≠ k := by
        rintro rfl
        exact hjf (congrArg Item.frame (Option.some.inj (hk.symm.trans hn)))
      exact ⟨g, mem_held.mpr ⟨k, by rw [frame?_drop, if_neg hkn]; exact hk⟩, rfl⟩
    · right
      by_cases hkf : k = .frame f
      · subst hkf
        obtain ⟨q, hq, rfl⟩ := Store.mem_references_clearFrame_self.mp hkj
        cases Option.some.inj (hp.symm.trans hq)
        exact ⟨i, ⟨hi, hif⟩, hrefers⟩
      · exact ⟨k, ⟨hk, hkf⟩, hkj⟩

namespace Alone

variable (h : t.Alone n f)

include h

lemma lt : f.index < t.store.frames.size :=
    Store.lt_of_selfCaptures (selfCaptures_pos.mpr h.captured)

lemma eq_of_frame? (hk : t.frame? k = some f) : k = n := by
  rcases h.only (.handle k) ⟨hk, fun i hi => by cases hi⟩ with h | ⟨_, h⟩
  · exact Reference.handle.inj h
  · cases h

/-- Only the frame itself, and nothing else that is alive, refers to it. -/
lemma eq_of_references (hi : t.Live i) (hif : .frame f ∈ t.store.references i) : i = .frame f := by
  obtain ⟨r, hr, ht⟩ := mem_references_frame.mp hif
  rcases h.only r ⟨ht, fun j hj => by rw [hr] at hj; cases hj; exact hi⟩ with rfl | ⟨k, rfl⟩
  · cases hr
  · cases hr
    rfl

/-- No path from something else that is alive leads to the frame. -/
lemma eq_of_path (hpath : Relation.ReflTransGen (fun i j => j ∈ t.store.references i) i
    (.frame f)) :
    t.Live i → i = .frame f := by
  induction hpath using Relation.ReflTransGen.head_induction_on with
  | refl => exact fun _ => rfl
  | @head i j hij hpath ih =>
    intro hi
    have hj : j ∈ t.store.items := by
      rcases hpath.cases_head with rfl | ⟨k, hjk, -⟩
      · exact Store.mem_items.mpr h.lt
      · exact Store.mem_items_of_references hjk
    rw [ih (hi.of_references hij hj)] at hij
    exact h.eq_of_references hi hij

/-- No other handle reaches the frame. -/
lemma not_reaches (hk : t.frame? k = some g) (hne : k ≠ n) : ¬t.store.Reaches g f := by
  intro hreaches
  have hgf : g = f := by
    rcases hreaches.cases_head with heq | ⟨j, hj, -⟩
    · exact Item.frame.inj heq
    · have hlt : g.index < t.store.frames.size :=
        Store.mem_items.mp (Store.mem_items_of_references hj)
      exact Item.frame.inj
        (h.eq_of_path hreaches (live_of_held (mem_held.mpr ⟨k, hk⟩) hlt))
  subst hgf
  exact hne (h.eq_of_frame? hk)

/-! ### Without its handle -/

lemma parent?_ne (hn : t.frame? n = some f) : t.store.parent? f ≠ some f :=
  ((alone_iff (live_of_held (mem_held.mpr ⟨n, hn⟩) h.lt)).mp h).2.2.1

/-- Once it is released and its handle is dropped, the frame is dead. -/
lemma not_live (hn : t.frame? n = some f) : ¬((t.cleared f).drop n).Live (.frame f) := by
  intro hlive
  rcases ((t.cleared f).drop n).keeps_live.kept _ hlive with ⟨g, hg, hfg⟩ | ⟨j, hj, hjf⟩
  · cases hfg
    obtain ⟨k, hk⟩ := mem_held.mp hg
    rw [frame?_drop] at hk
    split_ifs at hk with hne
    exact hne (h.eq_of_frame? hk).symm
  · have hjf' : j = .frame f := h.eq_of_references hj.of_drop.of_cleared (references_cleared hjf)
    subst hjf'
    obtain ⟨p, hp, hpf⟩ := Store.mem_references_clearFrame_self.mp hjf
    cases hpf
    exact h.parent?_ne hn hp

/-- What refers to the parent of the frame goes on to do so; only the frame itself does not. -/
lemma refers_drop_iff (hn : t.frame? n = some f) (hp : t.store.parent? f = some p) :
    ((t.cleared f).drop n).Refers r p ↔ (t.cleared f).Refers r p ∧ r ≠ .outer f := by
  have hpf : p ≠ f := fun he => h.parent?_ne hn (he ▸ hp)
  have htarget : ((t.cleared f).drop n).target? r = some p ↔ (t.cleared f).target? r = some p :=
    target?_drop_iff fun hk => hpf (Option.some.inj (hk.symm.trans hn))
  constructor
  · rintro ⟨hr, hlive⟩
    refine ⟨⟨htarget.mp hr, fun i hi => (hlive i hi).of_drop⟩, ?_⟩
    rintro rfl
    exact h.not_live hn (hlive _ rfl)
  · rintro ⟨⟨hr, hlive⟩, hne⟩
    refine ⟨htarget.mpr hr, fun i hi => live_drop hn hp (hlive i hi) ?_ ?_⟩
    · rintro rfl
      exact hne (eq_outer_of_cleared hr hi)
    · exact mem_references_frame.mpr ⟨r, hi, hr⟩

end Alone

end FrameTable

end Flowgraph
