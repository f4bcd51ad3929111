import Flowgraph.Proofs.Release.Later

/-!
# Releases are safe

A frame is released exactly when nothing but its handle and its own closures refers to it, so nobody
else loses anything: `releases_of_frame?` collects what a release does and does not do.

Being alive is looked up in the store as it is. `live_of_step` shows that nothing that is gone comes
back, so it is what remains when everything is dropped as soon as nothing refers to it.
-/

namespace Flowgraph

namespace FrameTable

variable {t t' : FrameTable} {n : Nat} {f : FrameId} {i : Item}

/-! ### What is gone -/

/-- What a host writes is at hand: whatever was there before and is referred to by the value, or by
the containers that are created along with it, is alive. -/
def AtHand (t : FrameTable) : FrameStep → Prop
  | .set _ _ _ made v =>
    (∀ j, v.item? = some j → j ∈ t.store.items → t.Live j) ∧
      ∀ i ∈ (t.make made).store.items, i ∉ t.store.items →
        ∀ j ∈ (t.make made).store.references i, j ∈ t.store.items → t.Live j
  | _ => True

/-- Nothing comes back when new handles and references are to what is new or alive. -/
lemma live_of_change (hi : t'.Live i) (hold : i ∈ t.store.items)
    (hheld : ∀ f ∈ t'.held, f ∈ t.held ∨ .frame f ∉ t.store.items)
    (hrefs : ∀ k, ∀ j ∈ t'.store.references k, j ∈ t.store.items →
      j ∈ t.store.references k ∨ t.Live j) : t.Live i := by
  refine ⟨fun j => t.Live j ∨ j ∈ t.store.items ∧ t'.Live j, ⟨?_, ?_⟩, .inr ⟨hold, hi⟩⟩
  · rintro j (hj | ⟨hj, -⟩)
    · exact t.keeps_live.exist j hj
    · exact hj
  · have halive : ∀ j, t.Live j → (∃ f ∈ t.held, j = .frame f) ∨
        ∃ k, (t.Live k ∨ k ∈ t.store.items ∧ t'.Live k) ∧ j ∈ t.store.references k :=
      fun j hj => (t.keeps_live.kept j hj).imp_right fun ⟨k, hk, hkj⟩ => ⟨k, .inl hk, hkj⟩
    rintro j (hj | ⟨hj, hlive⟩)
    · exact halive j hj
    · rcases t'.keeps_live.kept j hlive with ⟨f, hf, rfl⟩ | ⟨k, hk, hkj⟩
      · rcases hheld f hf with hf | hno
        · exact .inl ⟨f, hf, rfl⟩
        · exact absurd hj hno
      · rcases hrefs k j hkj hj with hkj | hj
        · exact .inr ⟨k, .inr ⟨Store.mem_items_of_references hkj, hk⟩, hkj⟩
        · exact halive j hj

lemma references_withContainer (s : Store) (c : Container) (hi : i ∈ s.items) :
    (s.withContainer c).references i = s.references i ∧ i ∈ (s.withContainer c).items := by
  have hlt := Store.mem_items.mp hi
  have hcontents : (s.withContainer c).contents i = s.contents i := by
    cases c <;> cases i <;> first
      | rfl
      | simp only [Store.withContainer, Store.newBlock, Store.newDict, Store.newChannel,
          Store.contents, Store.block, Store.dict, Store.channel, Array.getElem?_push,
          if_neg (Nat.ne_of_lt hlt)]
  constructor
  · have houter : ∀ g, (s.withContainer c).parent? g = s.parent? g := fun g => by cases c <;> rfl
    simp only [Store.references, hcontents, houter]
  · rw [Store.mem_items]
    cases c <;> cases i <;> first
      | exact hlt
      | (simp only [Store.withContainer, Store.newBlock, Store.newDict, Store.newChannel,
          Array.size_push]
         exact Nat.lt_succ_of_lt hlt)

/-- Containers that are created change nothing that was there before. -/
lemma references_make (made : List Container) (hi : i ∈ t.store.items) :
    (t.make made).store.references i = t.store.references i := by
  have hfold : ∀ s : Store, i ∈ s.items →
      (made.foldl Store.withContainer s).references i = s.references i := by
    induction made with
    | nil => exact fun _ _ => rfl
    | cons c made ih =>
      intro s hs
      obtain ⟨hsame, hmem⟩ := references_withContainer s c hs
      exact (ih _ hmem).trans hsame
  exact hfold t.store hi

lemma references_setSlot {s : Store} {g : FrameId} {slot : Nat} {v : Value} {j : Item}
    (hj : j ∈ (s.setSlot g slot v).references i) : j ∈ s.references i ∨ v.item? = some j := by
  rw [Store.mem_references] at hj ⊢
  rcases hj with ⟨f, p, rfl, hp, rfl⟩ | ⟨w, hw, hwj⟩
  · exact .inl (.inl ⟨f, p, rfl, Store.parent?_setSlot g slot v f ▸ hp, rfl⟩)
  · cases i with
    | frame f =>
      rw [Store.contents, Store.slots_setSlot] at hw
      split_ifs at hw
      · rcases Array.mem_or_eq_of_mem_setIfInBounds (Array.mem_def.mpr hw) with hw | rfl
        · exact .inl (.inr ⟨w, Array.mem_def.mp hw, hwj⟩)
        · exact .inr hwj
      · exact .inl (.inr ⟨w, hw, hwj⟩)
    | _ => exact .inl (.inr ⟨w, hw, hwj⟩)

lemma live_of_newFrame {size : Nat} {parent : Option FrameId}
    (hparent : ∀ p, parent = some p → p ∈ t.held) (hold : i ∈ t.store.items)
    (hi : FrameTable.Live ⟨(t.store.newFrame size parent).2,
      t.handles.push (some (t.store.newFrame size parent).1)⟩ i) : t.Live i := by
  refine live_of_change hi hold (fun f hf => ?_) (fun k j hj hjold => ?_)
  · obtain ⟨n, hn⟩ := mem_held.mp hf
    simp only [frame?, Array.getElem?_push] at hn
    split_ifs at hn
    · cases hn
      exact .inr fun hmem => Nat.lt_irrefl _ (Store.mem_items.mp hmem)
    · exact .inl (mem_held.mpr ⟨n, hn⟩)
  · rw [Store.mem_references] at hj
    rcases hj with ⟨g, p, rfl, hp, rfl⟩ | ⟨v, hv, hvj⟩
    · rw [Store.parent?, Store.frame_newFrame] at hp
      split_ifs at hp
      · exact .inr (live_of_held (hparent p hp) (Store.mem_items.mp hjold))
      · exact .inl (Store.mem_references.mpr (.inl ⟨g, p, rfl, hp, rfl⟩))
    · refine .inl (Store.mem_references.mpr (.inr ⟨v, ?_, hvj⟩))
      cases k with
      | frame g =>
        rw [Store.contents, Store.slots, Store.frame_newFrame] at hv
        split_ifs at hv
        · rw [Array.toList_replicate, List.mem_replicate] at hv
          rw [hv.2] at hvj
          cases hvj
        · exact hv
      | _ => exact hv

/-- What a step leaves alive of what was there before was alive before. -/
theorem live_of_step (s : FrameStep) (hs : t.AtHand s) (hold : i ∈ t.store.items)
    (hi : (t.step s).2.Live i) : t.Live i := by
  cases s with
  | new size parent =>
    simp only [step, create] at hi
    cases hsize : checkSize size maxValues with
    | error e =>
      rw [hsize] at hi
      exact hi
    | ok _ =>
      rw [hsize] at hi
      refine live_of_newFrame (fun p hp => ?_) hold hi
      obtain ⟨n, -, hn⟩ := Option.bind_eq_some_iff.mp hp
      exact mem_held.mpr ⟨n, hn⟩
  | drop n => exact hi.of_drop
  | set n hops slot made v =>
    obtain ⟨hvalue, hmade⟩ := hs
    have hrefs : ∀ k, ∀ j ∈ (t.make made).store.references k, j ∈ t.store.items →
        j ∈ t.store.references k ∨ t.Live j := by
      intro k j hj hjold
      by_cases hk : k ∈ t.store.items
      · exact .inl (references_make made hk ▸ hj)
      · exact .inr (hmade k (Store.mem_items_of_references hj) hk j hj hjold)
    simp only [step] at hi
    split at hi
    case h_1 g hat =>
      refine live_of_change hi hold (fun f hf => .inl hf) (fun k j hj hjold => ?_)
      rcases references_setSlot hj with hj | hj
      · exact hrefs k j hj hjold
      · exact .inr (hvalue j hj hjold)
    case h_2 => exact live_of_change hi hold (fun f hf => .inl hf) hrefs
  | release n =>
    simp only [step] at hi
    split at hi
    case h_1 f hn =>
      cases hr : (t.release f).1 with
      | false => rwa [release_false hr] at hi
      | true =>
        rw [release_true hr] at hi
        exact hi.of_cleared
    case h_2 => exact hi
  | _ => exact hi

/-! ### Releases -/

/-- What a release of the frame of a number does. -/
structure Releases (t : FrameTable) (n : Nat) (f : FrameId) : Prop where
  /-- It succeeds exactly when nothing but the handle and direct slots refers to the frame. -/
  criterion : (t.release f).1 = true ↔ t.Alone n f
  /-- Then no other handle reaches the frame. -/
  unreached : (t.release f).1 = true → ∀ k g, k ≠ n → t.frame? k = some g → ¬t.store.Reaches g f
  /-- Every slot of the frame becomes nil. -/
  cleared : (t.release f).1 = true →
    ∀ i < t.store.frameSize f, (t.release f).2.store.slot? f i = some .nil
  /-- Other frames stay what they are. -/
  others : (t.release f).1 = true → ∀ g, g ≠ f → (t.release f).2.store.frame g = t.store.frame g
  /-- As long as releases are answered alike, nothing but the slots of the frame shows later
  whether it was released. -/
  later : (t.release f).1 = true → ∀ steps, (t.release f).2.releases steps = t.releases steps →
    Alike f ((t.release f).2.after steps) (t.after steps) ∧
      ∀ s, (∀ k, s ≠ .release k) → (t.after steps).reads? s ≠ some f →
        (((t.release f).2.after steps).step s).1 = ((t.after steps).step s).1
  /-- The first release of another frame that is answered differently succeeds where the frame was
  released, and fails where it was not. -/
  first : (t.release f).1 = true → ∀ steps, (t.release f).2.releases steps = t.releases steps →
    ∀ k g, (t.after steps).frame? k = some g → g ≠ f → ((t.after steps).release g).1 = true →
      (((t.release f).2.after steps).release g).1 = true
  /-- Without its handle, the frame is dead. -/
  dead : (t.release f).1 = true → ¬((t.release f).2.drop n).Live (.frame f)
  /-- It no longer counts as a reference to its parent; everything else does. -/
  outer : (t.release f).1 = true → ∀ p, t.store.parent? f = some p →
    ∀ r, ((t.release f).2.drop n).Refers r p ↔ (t.release f).2.Refers r p ∧ r ≠ .outer f
  /-- When it fails, nothing changes. -/
  kept : (t.release f).1 = false → (t.release f).2 = t

/-- Whatever a host has done with frames before, a release of one of them is safe. -/
theorem releases_of_frame? (t : FrameTable) (n : Nat) (f : FrameId) (hn : t.frame? n = some f) :
    t.Releases n f := by
  have halone : (t.release f).1 = true → t.Alone n f := (release_iff hn).mp
  constructor
  · exact release_iff hn
  · exact fun hr k g hne hk => (halone hr).not_reaches hk hne
  · intro hr i hi
    rw [release_true hr, cleared, Store.slot?_clearFrame_self, Store.slot?,
      Array.getElem?_eq_getElem hi]
    rfl
  · intro hr g hg
    rw [release_true hr, cleared, Store.frame_clearFrame, if_neg hg]
  · intro hr steps hsteps
    rw [release_true hr] at hsteps ⊢
    have halike := (alike_cleared (halone hr).lt).after steps hsteps
    exact ⟨halike, fun s hs hreads => halike.answer s hs hreads⟩
  · intro hr steps hsteps k g hk hg hrelease
    rw [release_true hr] at hsteps ⊢
    exact ((alike_cleared (halone hr).lt).after steps hsteps).release hk hg hrelease
  · intro hr
    rw [release_true hr]
    exact (halone hr).not_live hn
  · intro hr p hp r
    rw [release_true hr]
    exact (halone hr).refers_drop_iff hn hp
  · exact release_false

/-- The first frame captures itself and the second, which captures itself. -/
def capturing : List FrameStep := [
  .new 2 none,
  .new 1 none,
  .set 0 0 0 [] (.func ⟨0⟩ (some ⟨0⟩)),
  .set 0 0 1 [] (.func ⟨0⟩ (some ⟨1⟩)),
  .set 1 0 0 [] (.func ⟨0⟩ (some ⟨1⟩))]

theorem releases_of_capturing : (({} : FrameTable).after capturing).frame? 0 = some ⟨0⟩ ∧
    ((({} : FrameTable).after capturing).release ⟨0⟩).1 = true ∧
    (({} : FrameTable).after capturing).Releases 0 ⟨0⟩ :=
  ⟨rfl, rfl, releases_of_frame? _ 0 ⟨0⟩ rfl⟩

/-- Whether a frame was released shows in what a later release of another frame answers. -/
theorem later_release_differs :
    (({} : FrameTable).after capturing).frame? 0 = some ⟨0⟩ ∧
      (({} : FrameTable).after capturing).frame? 1 = some ⟨1⟩ ∧
      ((({} : FrameTable).after capturing).release ⟨0⟩).1 = true ∧
      (((({} : FrameTable).after capturing).release ⟨0⟩).2.release ⟨1⟩).1 = true ∧
      ((({} : FrameTable).after capturing).release ⟨1⟩).1 = false := by
  decide +kernel

end FrameTable

end Flowgraph
