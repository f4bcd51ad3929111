import Mathlib.Tactic.Common
import Flowgraph.Proofs.Hands.Values

/-!
# What moves uphold

A property of stores that survives all that chains do by themselves, and all that is done to
channels, survives every move. Two examples: frames keep their sizes, and no two keys of a
dictionary are equal.
-/

namespace Flowgraph

variable {I : Store → Prop} {p : Program} {m : Machine}

/-- When nothing is asked of values, a property has only to survive what is done to a store. -/
lemma Program.origins_of_robust (R : Robust I) (hset : Settable I fun _ => True)
    (hclose : Closable I) : p.Origins (fun _ => True) (fun _ _ => True) (fun _ => True) I where
  stable := R.toStable
  settable := hset
  slots _ _ _ _ _ := trivial
  setSlot s f i v hs _ := R.setSlot s f i v hs
  close s ch hs := hclose s ch hs
  constant _ _ _ := trivial
  closure _ _ _ _ _ _ _ := trivial
  enter _ _ := trivial
  successor _ _ _ _ := (ends_any _).mono fun _ _ => trivial
  begin s slots parent _ _ hs _ _ _ := ⟨R.withFrame s slots parent hs, trivial⟩

lemma Reply.bears_any (r : Reply) : r.Bears fun _ => True := by
  cases r with
  | results vs | print line vs => exact fun _ _ => trivial
  | stop e => exact trivial
  | call f vs => exact ⟨trivial, fun _ _ => trivial⟩

lemma Callee.bears_any (callee : Callee) : callee.Bears (fun _ => True) fun _ => True := by
  cases callee with
  | declared a => exact trivial
  | native name args => exact fun _ _ => trivial

lemma Chain.bears_any (c : Chain) : c.Bears (fun _ => True) (fun _ _ => True) fun _ => True := by
  refine ⟨fun _ _ => trivial, ?_⟩
  have hpurpose : ∀ purpose : Purpose, purpose.Holds fun _ => True := fun purpose => by
    cases purpose <;> exact trivial
  cases c.stage with
  | call callee receiver args => exact ⟨trivial, fun _ _ => trivial, fun _ _ => trivial⟩
  | start depth callee | spawn callee | launch t callee => exact callee.bears_any
  | deliver vs => exact fun _ _ => trivial
  | receive ch purpose phase => exact hpurpose purpose
  | received purpose v => exact ⟨hpurpose purpose, fun _ _ => trivial⟩
  | exit outcome | leave outcome | ended outcome =>
    cases outcome with
    | ok vs => exact fun _ _ => trivial
    | error e => exact trivial
  | _ => exact trivial

/-- Every move keeps what is robust and does not depend on channels. -/
theorem Machine.robust_step (R : Robust I) (hset : Settable I fun _ => True)
    (hchannel : ∀ s ch f, I s → I (s.updateChannel ch f)) (hfit : m.Fits) (hs : I m.store)
    (mv : Move) : I (m.step mv).store :=
  store_step_of_hands
    ((Program.origins_of_robust R hset fun s ch hs => hchannel s ch _ hs).hands hs
      (fun _ _ _ _ => trivial) fun _ _ _ _ _ => Reply.bears_any _)
    (fun ch _ _ => hchannel _ ch _ hs) (fun ch => hchannel _ ch _ hs) hfit
    fun _ c _ _ _ _ => c.bears_any

/-! ### Frames keep their sizes -/

section Frames

variable {f : FrameId} {i : Nat}

lemma Store.robust_frameSize (f : FrameId) (i : Nat) : Robust fun s => i < s.frameSize f where
  plain _ _ := trivial
  fresh _ _ := ⟨trivial, trivial⟩
  element _ _ _ _ _ _ := trivial
  entry _ _ _ _ _ := ⟨trivial, trivial⟩
  newBlock _ _ hs _ := hs
  newDict _ _ hs _ _ := hs
  insertEntry _ _ _ _ hs _ _ := hs
  newChannel _ _ hs := hs
  writeLine _ _ hs := hs
  setSlot s g j v hs := by
    rw [frameSize_setSlot]
    exact hs
  withFrame s slots parent hs := by
    have hne : f ≠ s.nextFrame := by
      rintro rfl
      rw [frameSize, Store.slots, frame, nextFrame, Array.getElem?_eq_none (Nat.le_refl _)] at hs
      exact Nat.not_lt_zero _ hs
    rw [frameSize, Store.slots, frame_withFrame, if_neg hne]
    exact hs

/-- A slot that is there stays there. -/
theorem Machine.frameSize_step (hfit : m.Fits) (h : i < m.store.frameSize f) (mv : Move) :
    i < (m.step mv).store.frameSize f :=
  robust_step (Store.robust_frameSize f i) (fun _ _ _ _ hs _ _ => hs) (fun _ _ _ hs => hs) hfit h mv

end Frames

/-! ### Dictionaries stay proper -/

/-- No two keys of any dictionary are equal. -/
def Store.Proper (s : Store) : Prop := ∀ d, (s.dict d).Proper

namespace Store

variable {s : Store}

lemma Proper.newDict (hs : s.Proper) {d : Dict} (hd : d.Proper) : (s.newDict d).2.Proper :=
  fun d' => forall_getD_push (P := Dict.Proper) (fun i => hs ⟨i⟩) hd d'.index

lemma Proper.insertEntry (hs : s.Proper) (d : DictId) (k v : Value) :
    (s.insertEntry d k v).Proper :=
  fun d' => forall_getD_modify (P := Dict.Proper) (fun i => hs ⟨i⟩) (fun _ h => h.insert k v)
    d.index d'.index

lemma Proper.eraseEntry (hs : s.Proper) (d : DictId) (k : Value) : (s.eraseEntry d k).Proper :=
  fun d' => forall_getD_modify (P := Dict.Proper) (fun i => hs ⟨i⟩) (fun _ h => h.erase k)
    d.index d'.index

lemma robust_proper : Robust Proper where
  plain _ _ := trivial
  fresh _ _ := ⟨trivial, trivial⟩
  element _ _ _ _ _ _ := trivial
  entry _ _ _ _ _ := ⟨trivial, trivial⟩
  newBlock _ _ hs _ := hs
  newDict _ _ hs hd _ := hs.newDict hd
  insertEntry _ d k v hs _ _ := hs.insertEntry d k v
  newChannel _ _ hs := hs
  writeLine _ _ hs := hs
  setSlot _ _ _ _ hs := hs
  withFrame _ _ _ hs := hs

end Store

/-- No move makes two keys of a dictionary equal. -/
theorem Machine.proper_step (hfit : m.Fits) (h : m.store.Proper) (mv : Move) :
    (m.step mv).store.Proper :=
  robust_step Store.robust_proper (fun _ _ _ _ hs _ _ => hs) (fun _ _ _ hs => hs) hfit h mv

end Flowgraph
