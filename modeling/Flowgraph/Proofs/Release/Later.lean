import Flowgraph.Proofs.Release.Freed

/-!
# After a release

A host goes on with frames in steps: it creates and drops them, writes and reads slots, and releases
other frames. Whether a frame was released does not show in what it learns about other frames, until
it releases one: what the frame's slots held no longer counts as a reference to another frame, so
that one may be released where it would be kept.
-/

namespace Flowgraph

/-! ### Steps of a host -/

/-- A container that a host creates along with a value that it writes. -/
inductive Container where
  | block (elements : Array Value)
  | dict (content : Dict)
  | channel (capacity : Nat)

/-- Create a container. -/
def Store.withContainer (s : Store) : Container → Store
  | .block elements => (s.newBlock elements).2
  | .dict content => (s.newDict content).2
  | .channel capacity => (s.newChannel capacity).2

/-- What a host does with frames. It names a frame by the number of a handle, and by how many links
further out it lies from there. -/
inductive FrameStep where
  | new (size : Nat) (parent : Option Nat)
  | drop (n : Nat)
  /-- Create containers, and write a slot. -/
  | set (n hops i : Nat) (made : List Container) (v : Value)
  | release (n : Nat)
  | get (n hops i : Nat)
  | range (n hops start count : Nat)
  | snapshot (n hops : Nat)
  | inspect (n hops : Nat)
  | size (n hops : Nat)
  /-- Which frame it is. -/
  | name (n hops : Nat)

/-- What a host learns from a step. -/
inductive Answer where
  | done
  | number (n : Nat)
  | refused (e : Stop)
  | flag (b : Bool)
  | value (v : Option Value)
  | values (vs : Option (List Value))
  | text (t : Option String)
  | size (n : Option Nat)
  | frame (f : Option FrameId)

namespace FrameTable

/-- The frame a number of links further out than the frame of a number. -/
def at? (t : FrameTable) (n hops : Nat) : Option FrameId :=
  (t.frame? n).bind fun f => t.store.ancestor? f hops

/-- Create containers. -/
def make (t : FrameTable) (made : List Container) : FrameTable :=
  { t with store := made.foldl Store.withContainer t.store }

/-- A step, and what a host learns from it. -/
def step (t : FrameTable) : FrameStep → Answer × FrameTable
  | .new size parent =>
    match t.create size (parent.bind t.frame?) with
    | .ok (n, t') => (.number n, t')
    | .error e => (.refused e, t)
  | .drop n => (.done, t.drop n)
  | .set n hops i made v =>
    match (t.make made).at? n hops with
    | some f => (.flag ((t.make made).set f i v).1, ((t.make made).set f i v).2)
    | none => (.flag false, t.make made)
  | .release n =>
    match t.frame? n with
    | some f => (.flag (t.release f).1, (t.release f).2)
    | none => (.flag false, t)
  | .get n hops i => (.value ((t.at? n hops).bind fun f => t.store.slot? f i), t)
  | .range n hops start count =>
    (.values ((t.at? n hops).bind fun f => t.store.range? f start count), t)
  | .snapshot n hops => (.values ((t.at? n hops).map fun f => (t.store.slots f).toList), t)
  | .inspect n hops => (.text ((t.at? n hops).map t.store.inspectFrame), t)
  | .size n hops => (.size ((t.at? n hops).map t.store.frameSize), t)
  | .name n hops => (.frame (t.at? n hops), t)

/-- What a table becomes by steps, one after the other. -/
def after (t : FrameTable) (steps : List FrameStep) : FrameTable :=
  steps.foldl (fun t step => (t.step step).2) t

/-- What releases have answered among steps, one after the other. -/
def releases (t : FrameTable) : List FrameStep → List Answer
  | [] => []
  | .release n :: steps => (t.step (.release n)).1 :: (t.step (.release n)).2.releases steps
  | step :: steps => (t.step step).2.releases steps

/-- The frame whose slots a step reads. -/
def reads? (t : FrameTable) : FrameStep → Option FrameId
  | .get n hops _ | .range n hops _ _ | .snapshot n hops | .inspect n hops => t.at? n hops
  | _ => none

/-- The frame that a step releases. -/
def releasing? (t : FrameTable) : FrameStep → Option FrameId
  | .release n => t.frame? n
  | _ => none

end FrameTable

/-! ### Stores that differ in one frame -/

namespace Store

variable {s s' : Store} {f g : FrameId} {v : Value}

/-- Stores are alike but for the slots of a frame, some of which are nil in the first. -/
structure Alike (f : FrameId) (s s' : Store) : Prop where
  rest : s = { s' with frames := s.frames }
  size : s.frames.size = s'.frames.size
  inside : f.index < s.frames.size
  frame : ∀ g, g ≠ f → s.frame g = s'.frame g
  parent : s.parent? f = s'.parent? f
  slots : s.frameSize f = s'.frameSize f
  slot : ∀ i, s.slot? f i = s'.slot? f i ∨ s.slot? f i = some .nil

lemma alike_clearFrame (h : f.index < s.frames.size) : Alike f (s.clearFrame f) s where
  rest := rfl
  size := Array.size_modify
  inside := by
    rw [clearFrame, Array.size_modify]
    exact h
  frame g hg := by rw [frame_clearFrame, if_neg hg]
  parent := parent?_clearFrame f f
  slots := by
    rw [frameSize, slots, frame_clearFrame, if_pos rfl]
    exact Array.size_map
  slot i := by
    rw [slot?_clearFrame_self]
    cases s.slot? f i with
    | none => exact .inl rfl
    | some v => exact .inr rfl

lemma frame_newFrame (size : Nat) (parent : Option FrameId) (g : FrameId) :
    (s.newFrame size parent).2.frame g =
      if g.index = s.frames.size then ⟨Array.replicate size .nil, parent⟩ else s.frame g := by
  simp only [Store.newFrame, Store.frame, Array.getElem?_push]
  split_ifs <;> rfl

/-- What values look like does not depend on frames. -/
lemma renderTo_frames (frames : Array Frame) (depth : Nat) (v : Value) :
    ({ s with frames := frames } : Store).renderTo depth v = s.renderTo depth v := by
  induction depth generalizing v with
  | zero => rfl
  | succ depth ih =>
    have hsame := funext ih
    cases v with
    | slice | struct | map | pointer =>
      simp only [renderTo, hsame]
      rfl
    | _ => rfl

lemma inspect_frames (frames : Array Frame) (v : Value) :
    ({ s with frames := frames } : Store).inspect v = s.inspect v := by
  have hrender : ∀ v, ({ s with frames := frames } : Store).render v = s.render v := fun v => by
    cases v <;> exact renderTo_frames frames _ _
  cases v with
  | nil | bool | int | float | str => rfl
  | _ => exact congrArg (fun text => _ ++ "(" ++ text ++ ")") (hrender _)

namespace Alike

variable (h : Alike f s s')

include h

lemma parent? (g : FrameId) : s.parent? g = s'.parent? g := by
  by_cases hg : g = f
  · subst hg
    exact h.parent
  · exact congrArg Frame.parent (h.frame g hg)

lemma ancestor? (g : FrameId) (hops : Nat) : s.ancestor? g hops = s'.ancestor? g hops := by
  induction hops generalizing g with
  | zero => rw [ancestor?_zero, ancestor?_zero]
  | succ hops ih =>
    rw [ancestor?_succ, ancestor?_succ, h.parent? g]
    exact congrArg _ (funext ih)

lemma frameSize (g : FrameId) : s.frameSize g = s'.frameSize g := by
  by_cases hg : g = f
  · subst hg
    exact h.slots
  · exact congrArg (fun fr : Frame => fr.slots.size) (h.frame g hg)

lemma slots_of_ne (hg : g ≠ f) : s.slots g = s'.slots g := congrArg Frame.slots (h.frame g hg)

lemma inspectFrame (hg : g ≠ f) : s.inspectFrame g = s'.inspectFrame g := by
  have hinspect : s.inspect = s'.inspect := funext fun v =>
    (congrArg (fun r : Store => r.inspect v) h.rest).trans (inspect_frames _ v)
  unfold Store.inspectFrame
  rw [h.slots_of_ne hg, h.parent? g, hinspect]

/-! ### What is done to both -/

lemma withContainer (c : Container) : Alike f (s.withContainer c) (s'.withContainer c) := by
  have hframes : ∀ s : Store, (s.withContainer c).frames = s.frames := fun s => by cases c <;> rfl
  have hframe : ∀ s : Store, (s.withContainer c).frame = s.frame := fun s => by cases c <;> rfl
  have hrest : s.withContainer c = { s'.withContainer c with frames := s.frames } := by
    rw [h.rest]
    cases c <;> rfl
  constructor
  · rw [hframes]
    exact hrest
  · rw [hframes, hframes]
    exact h.size
  · rw [hframes]
    exact h.inside
  · intro g hg
    rw [hframe, hframe]
    exact h.frame g hg
  · simp only [Store.parent?, hframe]
    exact h.parent
  · simp only [Store.frameSize, Store.slots, hframe]
    exact h.slots
  · simp only [Store.slot?, Store.slots, hframe]
    exact h.slot

lemma setSlot (g : FrameId) (i : Nat) (v : Value) :
    Alike f (s.setSlot g i v) (s'.setSlot g i v) where
  rest := by
    conv_lhs => rw [h.rest]
    rfl
  size := by
    rw [Store.setSlot, Store.setSlot, Array.size_modify, Array.size_modify]
    exact h.size
  inside := by
    rw [Store.setSlot, Array.size_modify]
    exact h.inside
  frame k hk := by
    rw [frame_setSlot, frame_setSlot, h.frame k hk, h.slots_of_ne hk]
  parent := by
    rw [parent?_setSlot, parent?_setSlot]
    exact h.parent
  slots := by
    rw [frameSize_setSlot, frameSize_setSlot]
    exact h.slots
  slot k := by
    by_cases hki : f = g ∧ k = i
    · obtain ⟨rfl, rfl⟩ := hki
      by_cases hlt : k < s.frameSize f
      · rw [slot?_setSlot_self hlt, slot?_setSlot_self (h.slots ▸ hlt)]
        exact .inl rfl
      · have hnone : ∀ {r : Store}, ¬k < r.frameSize f → r.slot? f k = none := fun hr =>
          Array.getElem?_eq_none (Nat.not_lt.mp hr)
        left
        rw [hnone, hnone]
        · rwa [frameSize_setSlot, ← h.slots]
        · rwa [frameSize_setSlot]
    · have hne : f = g → k ≠ i := fun hf hk => hki ⟨hf, hk⟩
      rw [slot?_setSlot_of_ne hne, slot?_setSlot_of_ne hne]
      exact h.slot k

lemma newFrame (size : Nat) (parent : Option FrameId) :
    Alike f (s.newFrame size parent).2 (s'.newFrame size parent).2 := by
  have hne : f.index ≠ s.frames.size := Nat.ne_of_lt h.inside
  have hne' : f.index ≠ s'.frames.size := h.size ▸ hne
  constructor
  · conv_lhs => rw [h.rest]
    rfl
  · simp only [Store.newFrame, Array.size_push, h.size]
  · simp only [Store.newFrame, Array.size_push]
    exact Nat.lt_succ_of_lt h.inside
  · intro g hg
    rw [frame_newFrame, frame_newFrame, h.size, h.frame g hg]
  · simp only [Store.parent?, frame_newFrame, if_neg hne, if_neg hne']
    exact h.parent
  · simp only [Store.frameSize, Store.slots, frame_newFrame, if_neg hne, if_neg hne']
    exact h.slots
  · simp only [Store.slot?, Store.slots, frame_newFrame, if_neg hne, if_neg hne']
    exact h.slot

lemma clearFrame (g : FrameId) : Alike f (s.clearFrame g) (s'.clearFrame g) where
  rest := by
    conv_lhs => rw [h.rest]
    rfl
  size := by
    rw [Store.clearFrame, Store.clearFrame, Array.size_modify, Array.size_modify]
    exact h.size
  inside := by
    rw [Store.clearFrame, Array.size_modify]
    exact h.inside
  frame k hk := by
    rw [frame_clearFrame, frame_clearFrame, h.frame k hk, h.slots_of_ne hk]
  parent := by
    rw [parent?_clearFrame, parent?_clearFrame]
    exact h.parent
  slots := by
    simp only [Store.frameSize, Store.slots, frame_clearFrame]
    split_ifs
    · simp only [Array.size_map]
      exact h.slots
    · exact h.slots
  slot k := by
    by_cases hg : f = g
    · subst hg
      left
      have hslot : s.slot? f k = none ↔ s'.slot? f k = none := by
        rw [slot?, slot?, Array.getElem?_eq_none_iff, Array.getElem?_eq_none_iff]
        exact iff_of_eq (congrArg (· ≤ k) h.slots)
      rw [slot?_clearFrame_self, slot?_clearFrame_self]
      cases hs : s.slot? f k <;> cases hs' : s'.slot? f k <;> simp_all
    · rw [slot?_clearFrame_of_ne hg, slot?_clearFrame_of_ne hg]
      exact h.slot k

end Alike

end Store

/-! ### Tables that differ in one frame -/

namespace FrameTable

variable {t t' : FrameTable} {n k : Nat} {f g p : FrameId} {r : Reference} {i j : Item}

/-- Tables are alike but for the slots of a frame, some of which are nil in the first. -/
structure Alike (f : FrameId) (t t' : FrameTable) : Prop where
  handles : t.handles = t'.handles
  store : t.store.Alike f t'.store

lemma alike_cleared (h : f.index < t.store.frames.size) : Alike f (t.cleared f) t :=
  ⟨rfl, Store.alike_clearFrame h⟩

namespace Alike

variable (h : Alike f t t')

include h

lemma frame? (n : Nat) :
    t.frame? n = t'.frame? n := by rw [FrameTable.frame?, FrameTable.frame?, h.handles]

lemma held : t.held = t'.held := by rw [FrameTable.held, FrameTable.held, h.handles]

lemma at? (n hops : Nat) : t.at? n hops = t'.at? n hops := by
  rw [FrameTable.at?, FrameTable.at?, h.frame?]
  exact congrArg _ (funext fun f => h.store.ancestor? f hops)

lemma make (made : List Container) : Alike f (t.make made) (t'.make made) := by
  refine ⟨h.handles, ?_⟩
  have hfold : ∀ {s s' : Store}, s.Alike f s' →
      (made.foldl Store.withContainer s).Alike f (made.foldl Store.withContainer s') := by
    induction made with
    | nil => exact fun h => h
    | cons c made ih => exact fun h => ih (h.withContainer c)
  exact hfold h.store

/-! ### References -/

lemma slot?_env (g : FrameId) (i : Nat) (hv : (t.store.slot? g i).bind Value.env? = some p) :
    (t'.store.slot? g i).bind Value.env? = some p := by
  by_cases hg : g = f
  · subst hg
    rcases h.store.slot i with he | hnil
    · rwa [← he]
    · rw [hnil] at hv
      cases hv
  · rwa [Store.slot?, ← h.store.slots_of_ne hg]

/-- There are no more references in the first table. -/
lemma target? (hr : t.target? r = some p) : t'.target? r = some p := by
  cases r with
  | handle n => rwa [FrameTable.target?, ← h.frame?]
  | outer g => rwa [FrameTable.target?, ← h.store.parent?]
  | slot g i => exact h.slot?_env g i hr
  | _ =>
    rw [FrameTable.target?, h.store.rest] at hr
    exact hr

lemma references (hj : j ∈ t.store.references i) : j ∈ t'.store.references i := by
  rw [Store.mem_references] at hj ⊢
  rcases hj with ⟨g, p, rfl, hp, rfl⟩ | ⟨v, hv, hvj⟩
  · exact .inl ⟨g, p, rfl, (h.store.parent? g).symm.trans hp, rfl⟩
  · refine .inr ⟨v, ?_, hvj⟩
    cases i with
    | frame g =>
      obtain ⟨k, hk⟩ := List.mem_iff_getElem?.mp hv
      rw [Store.contents, Array.getElem?_toList] at hk
      by_cases hg : g = f
      · subst hg
        rcases h.store.slot k with he | hnil
        · refine List.mem_of_getElem? (i := k) ?_
          rw [Store.contents, Array.getElem?_toList]
          exact he.symm.trans hk
        · cases Option.some.inj (hk.symm.trans hnil)
          cases hvj
      · rwa [Store.contents, ← h.store.slots_of_ne hg]
    | _ =>
      rw [h.store.rest] at hv
      exact hv

lemma items : t.store.items = t'.store.items := by
  rw [h.store.rest]
  simp only [Store.items, h.store.size]

lemma live (hi : t.Live i) : t'.Live i :=
  hi.mono (fun _ hi => h.items ▸ hi) (fun _ hf => h.held ▸ hf) fun _ _ => h.references

/-- A frame that is alone is alone in the first table, too. -/
lemma alone (hg : g ≠ f) (ha : t'.Alone n g) : t.Alone n g where
  captured := by
    obtain ⟨i, hi⟩ := ha.captured
    refine ⟨i, ?_⟩
    rw [FrameTable.target?, Store.slot?, h.store.slots_of_ne hg]
    exact hi
  only r hr := ha.only r ⟨h.target? hr.1, fun i hi => h.live (hr.2 i hi)⟩

/-! ### Steps -/

/-- The first table releases another frame when the second does. -/
lemma release (hn : t'.frame? n = some g) (hg : g ≠ f) (hr : (t'.release g).1 = true) :
    (t.release g).1 = true :=
  (release_iff ((h.frame? n).trans hn)).mpr (h.alone hg ((release_iff hn).mp hr))

/-- Unless a release is answered differently, the tables go on to be alike. -/
lemma step (s : FrameStep) (hr : ∀ n, s = .release n → (t.step s).1 = (t'.step s).1) :
    Alike f (t.step s).2 (t'.step s).2 := by
  cases s with
  | new size parent =>
    have hparent : parent.bind t.frame? = parent.bind t'.frame? := congrArg _ (funext h.frame?)
    simp only [FrameTable.step, create, hparent]
    cases checkSize size maxValues with
    | error e => exact h
    | ok _ =>
      refine ⟨?_, h.store.newFrame size _⟩
      exact congrArg₂ Array.push h.handles (congrArg some (congrArg FrameId.mk h.store.size))
  | drop n => exact ⟨congrArg (fun a : Array (Option FrameId) => a.setIfInBounds n none)
      h.handles, h.store⟩
  | set n hops i made v =>
    have hmade := h.make made
    simp only [FrameTable.step, hmade.at?]
    cases (t'.make made).at? n hops with
    | none => exact hmade
    | some g => exact ⟨hmade.handles, hmade.store.setSlot g i v⟩
  | release n =>
    have hsame := hr n rfl
    simp only [FrameTable.step, h.frame?] at hsame ⊢
    cases hn : t'.frame? n with
    | none => exact h
    | some g =>
      rw [hn] at hsame
      have hflag : (t.release g).1 = (t'.release g).1 := Answer.flag.inj hsame
      cases hreleased : (t'.release g).1 with
      | false =>
        dsimp only
        rw [release_false hreleased, release_false (hflag.trans hreleased)]
        exact h
      | true =>
        dsimp only
        rw [release_true hreleased, release_true (hflag.trans hreleased)]
        exact ⟨h.handles, h.store.clearFrame g⟩
  | _ => exact h

/-- No answer differs but that of a release, or one that shows the slots of the frame. -/
lemma answer (s : FrameStep) (hr : ∀ n, s ≠ .release n) (hreads : t'.reads? s ≠ some f) :
    (t.step s).1 = (t'.step s).1 := by
  have hother : ∀ {n hops : Nat} {g : FrameId}, t'.at? n hops ≠ some f → t'.at? n hops = some g →
      g ≠ f := fun hne hg he => hne (hg.trans (congrArg some he))
  cases s with
  | new size parent =>
    simp only [FrameTable.step, create, funext h.frame?, Store.newFrame, h.handles]
    cases checkSize size maxValues <;> rfl
  | drop n => rfl
  | set n hops i made v =>
    have hmade := h.make made
    simp only [FrameTable.step, hmade.at?]
    cases (t'.make made).at? n hops with
    | none => rfl
    | some g => simp only [FrameTable.set, hmade.store.frameSize]
  | release n => exact absurd rfl (hr n)
  | get n hops i =>
    simp only [FrameTable.step, h.at?]
    refine congrArg Answer.value (Option.bind_congr fun g hg => ?_)
    rw [Store.slot?, Store.slot?, h.store.slots_of_ne (hother hreads hg)]
  | range n hops start count =>
    simp only [FrameTable.step, h.at?]
    refine congrArg Answer.values (Option.bind_congr fun g hg => ?_)
    rw [Store.range?, Store.range?, h.store.frameSize, h.store.slots_of_ne (hother hreads hg)]
  | snapshot n hops =>
    simp only [FrameTable.step, h.at?]
    refine congrArg Answer.values (Option.map_congr fun g hg => ?_)
    rw [h.store.slots_of_ne (hother hreads hg)]
  | inspect n hops =>
    simp only [FrameTable.step, h.at?]
    exact congrArg Answer.text
      (Option.map_congr fun g hg => h.store.inspectFrame (hother hreads hg))
  | size n hops => simp only [FrameTable.step, h.at?, funext h.store.frameSize]
  | name n hops => simp only [FrameTable.step, h.at?]

/-- As long as releases are answered alike, the tables are alike. -/
lemma after (steps : List FrameStep) (hr : t.releases steps = t'.releases steps) :
    Alike f (t.after steps) (t'.after steps) := by
  induction steps generalizing t t' with
  | nil => exact h
  | cons s steps ih =>
    cases s with
    | release n =>
      obtain ⟨hsame, hrest⟩ := List.cons.inj hr
      refine ih (h.step _ fun k hk => ?_) hrest
      exact hsame
    | _ => exact ih (h.step _ fun k hk => by cases hk) hr

end Alike

end FrameTable

end Flowgraph
