import Flowgraph.Proofs.Apart.Closed
import Flowgraph.Proofs.Apart.Mirror

/-!
# Bindings in stores that look alike

What a call is bound to is read. A frame is then created for the function, and filled, which takes
nothing from what there is in the store. So calls that read the same are bound to the same, up to
the name of the frame.
-/

namespace Flowgraph

open Named Store

variable {ρ : Renaming} {A W : Set Location} {s t : Store} {p : Program}

/-! ### Overwritten slots and new frames -/

namespace Store

lemma content_setSlot_of_ne {f : FrameId} {i : Nat} {l : Location} (h : l ≠ .slot f i) (v : Value) :
    (s.setSlot f i v).content l = s.content l := by
  cases l with
  | slot g j =>
    refine congrArg Content.value (slot?_setSlot_of_ne (fun hg hj => h ?_) v)
    rw [hg, hj]
  | _ => rfl

lemma content_setSlot_self {f : FrameId} {i : Nat} (h : i < s.frameSize f) (v : Value) :
    (s.setSlot f i v).content (.slot f i) = .value (some v) :=
  congrArg Content.value (slot?_setSlot_self h v)

lemma shape?_setSlot (f : FrameId) (i : Nat) (v : Value) (T : Table) (k : Nat) :
    (s.setSlot f i v).shape? T k = s.shape? T k := by
  cases T with
  | frames =>
    simp only [shape?, setSlot, Array.getElem?_modify]
    by_cases h : f.index = k
    · rw [if_pos h]
      cases s.frames[k]? with
      | none => rfl
      | some fr => simp
    · rw [if_neg h]
  | _ => rfl

lemma changes_setSlot (f : FrameId) (i : Nat) (v : Value) :
    Touches {.slot f i} s (s.setSlot f i v) where
  grows := s.grows_setSlot f i v
  shape T k _ := shape?_setSlot f i v T k
  content _ _ h := content_setSlot_of_ne h v

lemma size_setSlot (f : FrameId) (i : Nat) (v : Value) (T : Table) :
    (s.setSlot f i v).size T = s.size T := by
  cases T with
  | frames => exact Array.size_modify
  | _ => rfl

lemma within_slot {n : Table → Nat} {f : FrameId} {i : Nat} (h : f.index < n .frames) :
    Within n (Location.slot f i) := by
  rintro T k ⟨rfl, rfl⟩
  exact h

/-- Overwriting a slot has the same effect in stores that look alike. -/
lemma effect_setSlot (hview : View ρ A s t) (hf : Fresh ρ s t) {f : FrameId}
    (hlt : f.index < s.frames.size) {i : Nat} (hi : i < s.frameSize f)
    (hsize : t.frameSize (rename ρ f) = s.frameSize f) (v : Value) :
    Effect ρ {.slot f i} s (s.setSlot f i v) t (t.setSlot (rename ρ f) i (rename ρ v)) where
  here := changes_setSlot f i v
  there := by
    have hseen : rename ρ (Location.slot f i) ∈ Seen ρ {.slot f i} s :=
      ⟨_, rfl, within_slot hlt, rfl⟩
    have h := changes_setSlot (s := t) (rename ρ f) i (rename ρ v)
    exact ⟨h.grows, h.shape, fun l hl hn => h.content l hl fun he => hn (he ▸ hseen)⟩
  created T := by rw [size_setSlot, size_setSlot]
  shape T k hk := by
    rw [shape?_setSlot, shape?_setSlot, shape?_eq_none hk, shape?_eq_none (hf.le hk)]
    rfl
  content l hl := by
    rcases hl with rfl | hl
    · rw [content_setSlot_self hi]
      exact content_setSlot_self (by rw [hsize]; exact hi) _
    · have hne : l ≠ .slot f i := by
        rintro rfl
        exact hl (within_slot hlt)
      have hne' : rename ρ l ≠ .slot (rename ρ f) i := by
        intro he
        have he : rename ρ l = rename ρ (Location.slot f i) := he
        rcases Location.of_rename_eq he with ⟨rfl, -⟩ | ⟨T, j, k, hj, hk, hjk, -⟩
        · exact hne rfl
        · obtain ⟨rfl, rfl⟩ := hk
          have hge : s.size .frames ≤ j :=
            Nat.not_lt.mp fun hlt => hl ((Location.within_iff hj).mpr hlt)
          have hle := hf.le hge
          have hlt' := hview.lt (T := .frames) hlt
          omega
      rw [content_setSlot_of_ne hne', content_setSlot_of_ne hne]
      exact hf.content hl

lemma shape?_newFrame (n : Nat) (parent : Option FrameId) (T : Table) (k : Nat) :
    (s.newFrame n parent).2.shape? T k =
      if T = .frames ∧ k = s.frames.size then some ⟨n, parent⟩ else s.shape? T k := by
  cases T with
  | frames =>
    simp only [shape?, newFrame, Array.getElem?_push, true_and]
    split_ifs
    · simp
    · rfl
  | _ => simp [shape?, newFrame]

lemma content_newFrame (n : Nat) (parent : Option FrameId) (l : Location) :
    (s.newFrame n parent).2.content l = match l with
      | .slot f i =>
        if f.index = s.frames.size then .value (Array.replicate n .nil)[i]? else s.content l
      | _ => s.content l := by
  cases l with
  | slot f i =>
    simp only [content, slot?, slots, frame, newFrame, Array.getElem?_push]
    split_ifs <;> rfl
  | _ => rfl

lemma changes_newFrame (n : Nat) (parent : Option FrameId) :
    Touches W s (s.newFrame n parent).2 where
  grows := s.grows_newFrame n parent
  shape T k hk := by
    rw [shape?_newFrame, if_neg]
    rintro ⟨rfl, rfl⟩
    exact Nat.lt_irrefl _ hk
  content l hl _ := by
    rw [content_newFrame]
    cases l with
    | slot f i => exact if_neg (Nat.ne_of_lt (hl .frames f.index ⟨rfl, rfl⟩))
    | _ => rfl

/-- Creating a frame has the same effect in all stores. -/
lemma effect_newFrame (hf : Fresh ρ s t) (n : Nat) (parent : Option FrameId) :
    Effect ρ ∅ s (s.newFrame n parent).2 t (t.newFrame n (rename ρ parent)).2 where
  here := changes_newFrame n parent
  there := changes_newFrame n _
  created T := by
    cases T <;> simp [size, newFrame]
    omega
  shape T k hk := by
    have hname : ρ .frames s.frames.size = t.frames.size := hf .frames 0
    rw [shape?_newFrame, shape?_newFrame]
    by_cases hnew : T = .frames ∧ k = s.frames.size
    · obtain ⟨rfl, rfl⟩ := hnew
      rw [if_pos ⟨rfl, hname⟩, if_pos ⟨rfl, rfl⟩]
      rfl
    · have hnew' : ¬(T = .frames ∧ ρ T k = t.frames.size) := by
        rintro ⟨rfl, he⟩
        obtain ⟨j, rfl⟩ := Nat.exists_eq_add_of_le hk
        have hj : ρ .frames (s.frames.size + j) = t.frames.size + j := hf .frames j
        have hzero : j = 0 := by
          have he : ρ .frames (s.frames.size + j) = t.frames.size := he
          omega
        exact hnew ⟨rfl, by rw [hzero]; rfl⟩
      rw [if_neg hnew, if_neg hnew', shape?_eq_none hk, shape?_eq_none (hf.le hk)]
      rfl
  content l hl := by
    have hl := hl.resolve_left id
    have hname : ρ .frames s.frames.size = t.frames.size := hf .frames 0
    have hrest := hf.content hl
    rw [content_newFrame, content_newFrame]
    cases l with
    | slot f i =>
      have hge : s.frames.size ≤ f.index := Nat.not_lt.mp fun hlt => hl (within_slot hlt)
      have hiff : ρ .frames f.index = t.frames.size ↔ f.index = s.frames.size := by
        obtain ⟨j, hj⟩ := Nat.exists_eq_add_of_le hge
        have hname : ρ .frames (s.frames.size + j) = t.frames.size + j := hf .frames j
        rw [hj]
        omega
      dsimp only
      by_cases hnew : f.index = s.frames.size
      · rw [if_pos hnew]
        refine (if_pos (hiff.mpr hnew)).trans (congrArg Content.value ?_)
        rw [Array.getElem?_replicate]
        split_ifs <;> rfl
      · rw [if_neg hnew]
        exact (if_neg (mt hiff.mp hnew)).trans hrest
    | _ => exact hrest

end Store

/-! ### Frames for functions -/

/-- What a store does not have yet. -/
def Store.beyond (s : Store) : Set Location := {l | ¬Within s.size l}

namespace Op

variable {s₀ : Store} (hview : View ρ A s t) (hf : Fresh ρ s t) (hA : s₀.beyond ⊆ A)

include hview hf hA

lemma mirrors_newFrame (n : Nat) (parent : Option FrameId) :
    Mirrors ρ s₀.beyond s t (newFrame n parent s) (newFrame n (rename ρ parent) t) := by
  refine mirrors_same hview hf hA fun _ _ => ?_
  rw [create_apply, create_apply]
  have hname : t.nextFrame = rename ρ s.nextFrame :=
    congrArg FrameId.mk (hf .frames 0).symm
  have heffect := (effect_newFrame hf n parent).mono hview hf (Set.empty_subset s₀.beyond)
    fun _ hl _ => hA hl
  have h := Mirrors.ok (a := s.nextFrame) heffect
  rwa [← hname] at h

/-- Slots of new frames may be overwritten. -/
lemma mirrors_setSlot {f : FrameId} (hnew : s₀.frames.size ≤ f.index) (i : Nat) (v : Value)
    (missing : Stop) : Mirrors ρ s₀.beyond s t (setSlot f i v missing s)
      (setSlot (rename ρ f) i (rename ρ v) missing t) := by
  have hsize := frameSize_of_view hview hf f
  simp only [setSlot, bind_apply, get_apply, hsize]
  by_cases hi : i < s.frameSize f
  · have hlt : f.index < s.frames.size := by
      by_contra hge
      simp [frameSize, slots, frame, Array.getElem?_eq_none (Nat.not_lt.mp hge)] at hi
    have hbeyond : {Location.slot f i} ⊆ s₀.beyond := by
      rintro l rfl hw
      exact Nat.not_lt.mpr hnew (hw .frames f.index ⟨rfl, rfl⟩)
    rw [if_pos hi, if_pos hi]
    exact .ok ((effect_setSlot hview hf hlt hi hsize v).mono hview hf hbeyond fun _ hl _ => hA hl)
  · rw [if_neg hi, if_neg hi]
    exact mirrors_throw hview hf hA missing

/-- Parameters are written to a new frame. -/
lemma mirrors_setAll {f : FrameId} (hnew : s₀.frames.size ≤ f.index) (missing : Stop)
    (l : List (Nat × Value)) (hl : ∀ a ∈ l, rename ρ a.2 = a.2) :
    Mirrors ρ s₀.beyond s t ((l.forM fun a => setSlot f a.1 a.2 missing) s)
      ((l.forM fun a => setSlot (rename ρ f) a.1 a.2 missing) t) := by
  induction l generalizing s t with
  | nil => exact mirrors_pure hview hf hA rfl
  | cons a l ih =>
    simp only [List.forM]
    have hset := mirrors_setSlot hview hf hA hnew a.1 a.2 missing
    rw [hl a List.mem_cons_self] at hset
    refine hset.bind hview hf fun _ s' t' _ hview' hf' _ => ?_
    exact ih hview' hf' fun b hb => hl b (List.mem_cons_of_mem a hb)

end Op

namespace Program

variable (hview : View ρ A s t) (hf : Fresh ρ s t) (hA : s.beyond ⊆ A)

include hview hf hA

/-- A function is given the same frame in stores that look alike. -/
theorem mirrors_activate (decl : NodeId) {parent : FrameId} {receiver : Option Value}
    {args : List Value} (hparent : rename ρ parent = parent)
    (hreceiver : ∀ v, receiver = some v → rename ρ v = v) (hargs : ∀ v ∈ args, rename ρ v = v) :
    Op.Mirrors ρ s.beyond s t (p.activate decl parent receiver args s)
      (p.activate decl parent receiver args t) := by
  refine Op.mirrors_same hview hf hA fun d _ => ?_
  by_cases hlength : args.length ≠ d.params.length
  · rw [if_pos hlength]
    exact Op.mirrors_throw hview hf hA _
  · rw [if_neg hlength]
    have hframe := Op.mirrors_newFrame hview hf hA d.frameSize (some parent)
    rw [rename_some, hparent] at hframe
    refine hframe.bind hview hf fun frame s' t' hframe' hview' hf' he => ?_
    have hnew : s.frames.size ≤ frame.index := by
      rw [Op.newFrame, Op.except_bind_apply] at hframe'
      cases hsize : checkSize d.frameSize maxValues with
      | error e => rw [hsize] at hframe'; cases hframe'
      | ok _ => rw [hsize] at hframe'; cases hframe'; exact Nat.le_refl _
    have hfill : ∀ {s' t' : Store}, View ρ A s' t' → Fresh ρ s' t' →
        Op.Mirrors ρ s.beyond s' t'
          ((do (d.params.zip args).forM fun a =>
                 Op.setSlot frame a.1 a.2 (.malformed decl .parameterBeyondFrame)
               return Callee.declared ⟨frame, decl, d.entry, d.results⟩) s')
          ((do (d.params.zip args).forM fun a =>
                 Op.setSlot (rename ρ frame) a.1 a.2 (.malformed decl .parameterBeyondFrame)
               return Callee.declared ⟨rename ρ frame, decl, d.entry, d.results⟩) t') := by
      intro s' t' hview' hf'
      have hzip : ∀ a ∈ d.params.zip args, rename ρ a.2 = a.2 := fun a ha =>
        hargs a.2 (List.of_mem_zip ha).2
      refine (Op.mirrors_setAll hview' hf' hA hnew _ _ hzip).bind hview' hf'
        fun _ s'' t'' _ hview'' hf'' _ => ?_
      exact Op.mirrors_pure hview'' hf'' hA rfl
    cases hd : d.receiver with
    | none => exact hfill hview' hf'
    | some slot =>
      cases receiver with
      | none => exact hfill hview' hf'
      | some v =>
        have hset := Op.mirrors_setSlot hview' hf' hA hnew slot v
          (.malformed decl .parameterBeyondFrame)
        rw [hreceiver v rfl] at hset
        exact hset.bind hview' hf' fun _ s'' t'' _ hview'' hf'' _ => hfill hview'' hf''

/-! ### What calls are bound to -/

omit hview hf hA in
/-- What a call is bound to has been given a name. -/
lemma within_bindingOf (hp : p.Loaded) (hs : s.Closed) {f : FrameId} (hf : f.index < s.frames.size)
    {id : NodeId} {op : String} {b : Binding} (h : p.bindingOf f id op s = .ok b) :
    Within s.size b := by
  refine within_of_rename_eq fun π hπ hfix => ?_
  have hg : rename π globalFrame = globalFrame :=
    congrArg FrameId.mk (hfix .frames _ hs.anchored)
  have hframe : rename π f = f := congrArg FrameId.mk (hfix .frames _ hf)
  have hsame := follows_bindingOf hg hp f id op s s (hs.renamed hπ hfix)
  rw [hframe, h] at hsame
  exact (Except.ok.inj hsame).symm

/-- Calls that read the same are bound to the same. -/
theorem mirrors_bindCall (hρ : Keeps ρ s) (hp : p.Loaded) (hs : s.Closed) {id id' : NodeId}
    {op op' : String}
    (hsame : p.bindingOf globalFrame id' op' t = p.bindingOf globalFrame id op s) :
    Op.Mirrors ρ s.beyond s t (p.bindCall globalFrame id op s)
      (p.bindCall globalFrame id' op' t) := by
  rw [bindCall_eq, bindCall_eq, Op.look_bind_apply, Op.look_bind_apply, hsame]
  cases hb : p.bindingOf globalFrame id op s with
  | error e => exact Op.mirrors_throw hview hf hA e
  | ok b =>
    have hw := within_bindingOf hp hs hs.anchored hb
    cases b with
    | declared decl parent receiver args =>
      refine mirrors_activate hview hf hA decl ?_ (fun v hv => ?_) fun v hv => ?_
      · exact Within.rename_self (fun T k hk => hw T k (.inl hk)) hρ
      · exact Within.rename_self (fun T k hk => hw T k (.inr (.inl ⟨v, hv, hk⟩))) hρ
      · exact Within.rename_self (fun T k hk => hw T k (.inr (.inr ⟨v, hv, hk⟩))) hρ
    | native name args =>
      have hargs : rename ρ args = args := Within.rename_self (fun T k hk => hw T k hk) hρ
      exact Op.mirrors_pure hview hf hA (congrArg (Callee.native name) hargs.symm)

end Program

end Flowgraph
