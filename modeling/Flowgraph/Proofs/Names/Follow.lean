import Flowgraph.Proofs.Names.Stores
import Flowgraph.Proofs.Writes.Places

/-!
# Operations on renamed stores

An operation does the same to a renamed store as to the store itself, provided that whatever it
creates has the same name in both. The judgements compose along the monadic structure of an
operation, so an operation is judged by judging its parts.
-/

namespace Flowgraph

open Named

variable {π : Renaming} {s s' t t' : Store} {α β γ : Type} [Named α] [Named β]

/-! ### Looks -/

/-- In a renamed store, one look finds what the other one finds in the store itself. -/
def Look.Follows (π : Renaming) (x y : Look α) : Prop :=
  ∀ s t, s.Renamed π t → y t = rename π (x s)

namespace Look

lemma Follows.pure {a b : α} (h : b = rename π a) :
    Follows π (Pure.pure a) (Pure.pure b) := fun _ _ _ => congrArg Except.ok h

lemma Follows.throw (e : Stop) :
    Follows π (MonadExcept.throw e : Look α) (MonadExcept.throw e) := fun _ _ _ => rfl

lemma Follows.bind {x y : Look α} {f g : α → Look β} (h : Follows π x y)
    (hn : ∀ a, Follows π (f a) (g (rename π a))) : Follows π (x >>= f) (y >>= g) := by
  intro s t hst
  have hx := h s t hst
  simp only [Bind.bind, ReaderT.bind, Except.bind, hx]
  cases x s with
  | ok a => exact hn a s t hst
  | error e => rfl

lemma Follows.lift {x y : Except Stop α} (h : y = rename π x) :
    Follows π (liftM x : Look α) (liftM y) := fun _ _ _ => h

/-- Both begin with the same result that needs no store. -/
lemma Follows.same {x : Except Stop γ} {f g : γ → Look β}
    (hn : ∀ a, x = .ok a → Follows π (f a) (g a)) :
    Follows π ((liftM x : Look γ) >>= f) ((liftM x : Look γ) >>= g) := by
  intro s t hst
  cases x with
  | ok a => exact hn a rfl s t hst
  | error e => rfl

lemma Follows.read {f g : Store → Look β} (hn : ∀ s t, s.Renamed π t → g t t = rename π (f s s)) :
    Follows π (MonadReader.read >>= f) (MonadReader.read >>= g) := fun s t hst => hn s t hst

lemma Follows.mapM {x y : γ → Look β} (l : List γ) (h : ∀ a ∈ l, Follows π (x a) (y a)) :
    Follows π (l.mapM x) (l.mapM y) := by
  induction l with
  | nil => exact .pure rfl
  | cons a l ih =>
    rw [List.mapM_cons, List.mapM_cons]
    refine .bind (h a List.mem_cons_self) fun b => ?_
    refine .bind (ih fun a ha => h a (List.mem_cons_of_mem _ ha)) fun bs => ?_
    exact .pure rfl

end Look

/-! ### Operations -/

namespace Op

/-- Two computations match if they end alike, in renamed stores and with renamed results. -/
inductive Matches (π : Renaming) :
    EStateM.Result Stop Store α → EStateM.Result Stop Store α → Prop
  | ok {a : α} {s t : Store} (h : s.Renamed π t) : Matches π (.ok a s) (.ok (rename π a) t)
  | error {e : Stop} {s t : Store} (h : s.Renamed π t) : Matches π (.error e s) (.error e t)

lemma Matches.of_ok {a b : α} {s t : Store} (h : Matches π (.ok a s) (.ok b t)) :
    b = rename π a ∧ s.Renamed π t := by
  generalize hb : b = c at h
  cases h with
  | ok h => exact ⟨rfl, h⟩

lemma Matches.of_error {e e' : Stop} {s t : Store}
    (h : Matches π (.error e s : EStateM.Result Stop Store α) (.error e' t)) :
    s.Renamed π t := by
  cases h with
  | error h => exact h

/-- In a renamed store, one operation does what the other one does in the store itself, if what the
latter creates keeps its name. -/
structure Follows (π : Renaming) (x y : Op α) : Prop where
  grows : ∀ s : Store, s.Grows (x.after s)
  agrees : ∀ s t : Store, s.Renamed π t → s.Fixes π (x.after s) → Matches π (x s) (y t)

omit [Named β] in
lemma after_bind (x : Op γ) (f : γ → Op β) (s : Store) :
    (x >>= f).after s = match x s with
      | .ok a s' => (f a).after s'
      | .error _ s' => s' := by
  rw [after, bind_apply]
  cases x s <;> rfl

lemma Follows.pure {a b : α} (h : b = rename π a) :
    Follows π (Pure.pure a : Op α) (Pure.pure b) where
  grows s := .refl s
  agrees s t hst _ := by
    rw [h]
    exact .ok hst

lemma Follows.done : Follows π (Pure.pure () : Op Unit) (Pure.pure ()) := .pure rfl

lemma Follows.throw (e : Stop) :
    Follows π (MonadExcept.throw e : Op α) (MonadExcept.throw e) where
  grows s := .refl s
  agrees _ _ hst _ := .error hst

lemma Follows.bind {x y : Op α} {f g : α → Op β} (h : Follows π x y)
    (hn : ∀ a, Follows π (f a) (g (rename π a))) : Follows π (x >>= f) (y >>= g) where
  grows s := by
    have hx := h.grows s
    rw [after_bind]
    rw [after] at hx
    cases hxs : x s with
    | ok a s' => rw [hxs] at hx; exact hx.trans ((hn a).grows s')
    | error e s' => rw [hxs] at hx; exact hx
  agrees s t hst hfix := by
    have hx := h.grows s
    have ha := h.agrees s t hst
    rw [after_bind] at hfix
    rw [after] at hx ha
    rw [bind_apply, bind_apply]
    cases hxs : x s with
    | ok a s' =>
      rw [hxs] at hx ha hfix
      have hgrows := (hn a).grows s'
      generalize hyt : y t = r at ha
      cases ha fun T k hk hk' => hfix T k hk (Nat.lt_of_lt_of_le hk' (hgrows T)) with
      | ok hst' =>
        exact (hn a).agrees s' _ hst' fun T k hk hk' => hfix T k (Nat.le_trans (hx T) hk) hk'
    | error e s' =>
      rw [hxs] at ha hfix
      generalize hyt : y t = r at ha
      cases ha hfix with
      | error hst' => exact .error hst'

/-- Both begin with the same result that needs no store. -/
lemma Follows.same {x : Except Stop γ} {f g : γ → Op β}
    (hn : ∀ a, x = .ok a → Follows π (f a) (g a)) :
    Follows π ((liftM x : Op γ) >>= f) ((liftM x : Op γ) >>= g) := by
  cases x with
  | ok a => exact hn a rfl
  | error e => exact ⟨fun s => .refl s, fun s t hst _ => .error hst⟩

lemma Follows.lift {x y : Except Stop α} (h : y = rename π x) :
    Follows π (liftM x : Op α) (liftM y) := by
  subst h
  cases x with
  | ok a => exact ⟨fun s => .refl s, fun s t hst _ => .ok hst⟩
  | error e => exact ⟨fun s => .refl s, fun s t hst _ => .error hst⟩

lemma Follows.look {x y : Look α} (h : Look.Follows π x y) :
    Follows π (liftM x : Op α) (liftM y) where
  grows s := by
    simp only [after, liftM, monadLift, MonadLift.monadLift, read]
    cases x s <;> exact .refl s
  agrees s t hst _ := by
    have hx := h s t hst
    simp only [liftM, monadLift, MonadLift.monadLift, read, hx]
    cases x s with
    | ok a => exact .ok hst
    | error e => exact .error hst

/-- The store that is looked at is the store at hand. -/
lemma Follows.inspect {f g : Store → Op β} (hf : ∀ s : Store, s.Grows ((f s).after s))
    (h : ∀ s t : Store, s.Renamed π t → Follows π (f s) (g t) ) :
    Follows π (MonadState.get >>= f) (MonadState.get >>= g) where
  grows s := hf s
  agrees s t hst hfix := (h s t hst).agrees s t hst hfix

lemma Follows.modify {f g : Store → Store} (hf : ∀ s : Store, s.Grows (f s))
    (h : ∀ s t : Store, s.Renamed π t → (f s).Renamed π (g t)) :
    Follows π (modify f : Op Unit) (modify g) where
  grows s := hf s
  agrees s t hst _ := .ok (h s t hst)

lemma Follows.create {f g : Store → α × Store} (hf : ∀ s : Store, s.Grows (f s).2)
    (h : ∀ s t : Store, s.Renamed π t → s.Fixes π (f s).2 →
      (g t).1 = rename π (f s).1 ∧ (f s).2.Renamed π (g t).2) :
    Follows π (create f) (create g) where
  grows s := hf s
  agrees s t hst hfix := by
    obtain ⟨ha, hr⟩ := h s t hst hfix
    rw [create_apply, create_apply, ha]
    exact .ok hr

lemma Follows.ite {c c' : Prop} [Decidable c] [Decidable c'] {x x' y y' : Op α} (hc : c' ↔ c)
    (hx : Follows π x x') (hy : Follows π y y') :
    Follows π (if c then x else y) (if c' then x' else y') := by
  by_cases h : c
  · rw [if_pos h, if_pos (hc.mpr h)]
    exact hx
  · rw [if_neg h, if_neg (mt hc.mp h)]
    exact hy

lemma Follows.forM {x y : γ → Op Unit} (l : List γ) (h : ∀ a ∈ l, Follows π (x a) (y a)) :
    Follows π (l.forM x) (l.forM y) := by
  induction l with
  | nil => exact .pure rfl
  | cons a l ih =>
    exact .bind (h a List.mem_cons_self) fun _ => ih fun a ha => h a (List.mem_cons_of_mem _ ha)

lemma Follows.mapM {x y : γ → Op β} (l : List γ) (h : ∀ a ∈ l, Follows π (x a) (y a)) :
    Follows π (l.mapM x) (l.mapM y) := by
  induction l with
  | nil => exact .pure rfl
  | cons a l ih =>
    rw [List.mapM_cons, List.mapM_cons]
    refine .bind (h a List.mem_cons_self) fun b => ?_
    refine .bind (ih fun a ha => h a (List.mem_cons_of_mem _ ha)) fun bs => ?_
    exact .pure rfl

lemma Follows.times (n : Nat) {x y : Op α} (h : Follows π x y) :
    Follows π (times n x) (times n y) := by
  induction n with
  | zero => exact .pure rfl
  | succ n ih =>
    rw [times_succ, times_succ]
    exact .bind h fun a => .bind ih fun as => .pure rfl

/-! ### Slots, blocks and dictionaries -/

lemma follows_setSlot (f : FrameId) (i : Nat) (v : Value) (missing : Stop) :
    Follows π (setSlot f i v missing) (setSlot (rename π f) i (rename π v) missing) := by
  refine .inspect (fun s => ?_) fun s t hst => ?_
  · by_cases h : i < s.frameSize f
    · rw [if_pos h]
      exact s.grows_setSlot f i v
    · rw [if_neg h]
      exact .refl s
  · refine .ite (by rw [hst.frameSize]) (.modify ?_ ?_) (.throw _)
    · exact fun s => s.grows_setSlot f i v
    · exact fun s t hst => hst.setSlot f i v

lemma follows_setSlots (f : FrameId) (start : Nat) (vs : List Value) (missing : Stop) :
    Follows π (setSlots f start vs missing)
      (setSlots (rename π f) start (rename π vs) missing) := by
  induction vs generalizing start with
  | nil => exact .done
  | cons v vs ih => exact .bind (follows_setSlot f start v missing) fun _ => ih _

lemma follows_newFrame (size : Nat) (parent : Option FrameId) :
    Follows π (newFrame size parent) (newFrame size (rename π parent)) := by
  refine .same fun _ _ => .create (fun s => s.grows_newFrame _ _) fun s t hst hfix => ?_
  have hname : π .frames s.frames.size = s.frames.size :=
    hfix .frames _ (Nat.le_refl _) (by simp [Store.size, Store.newFrame])
  refine ⟨?_, hst.newFrame hname size parent⟩
  simp [Store.newFrame, rename, hname, hst.frames.size]

lemma follows_newBlock (elements : Array Value) :
    Follows π (create fun s => s.newBlock elements)
      (create fun s => s.newBlock (rename π elements)) := by
  refine .create (fun s => s.grows_newBlock _) fun s t hst hfix => ?_
  have hname : π .blocks s.blocks.size = s.blocks.size :=
    hfix .blocks _ (Nat.le_refl _) (by simp [Store.size, Store.newBlock])
  refine ⟨?_, hst.newBlock hname elements⟩
  simp [Store.newBlock, rename, hname, hst.blocks.size]

lemma follows_newSlice (elements : Array Value) :
    Follows π (newSlice elements) (newSlice (rename π elements)) :=
  .bind (follows_newBlock elements) fun _ => .pure rfl

lemma follows_newStruct (elements : Array Value) :
    Follows π (newStruct elements) (newStruct (rename π elements)) :=
  .bind (follows_newBlock elements) fun _ => .pure rfl

lemma follows_newDict (d : Dict) :
    Follows π (create fun s => s.newDict d) (create fun s => s.newDict (rename π d)) := by
  refine .create (fun s => s.grows_newDict _) fun s t hst hfix => ?_
  have hname : π .dicts s.dicts.size = s.dicts.size :=
    hfix .dicts _ (Nat.le_refl _) (by simp [Store.size, Store.newDict])
  refine ⟨?_, hst.newDict hname d⟩
  simp [Store.newDict, rename, hname, hst.dicts.size]

lemma follows_newChannel (capacity : Nat) :
    Follows π (newChannel capacity) (newChannel capacity) := by
  refine .same fun _ _ => .create (fun s => s.grows_newChannel _) fun s t hst hfix => ?_
  have hname : π .channels s.channels.size = s.channels.size :=
    hfix .channels _ (Nat.le_refl _) (by simp [Store.size, Store.newChannel])
  refine ⟨?_, hst.newChannel hname capacity⟩
  simp [Store.newChannel, rename, hname, hst.channels.size]

lemma follows_writeLine (line : String) : Follows π (writeLine line) (writeLine line) :=
  .modify (fun s => .refl s) fun _ _ hst => hst.writeLine line

end Op

end Flowgraph
