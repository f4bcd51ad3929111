import Mathlib.Tactic.Common
import Flowgraph.Proofs.Activation
import Flowgraph.Proofs.Upkeep.Places

/-!
# What operations spare

All slots that an operation may not write to are left alone, and so are the links between
frames.
-/

namespace Flowgraph

namespace Store

variable {A B : FrameId → Nat → Prop} {s t : Store}

/-- The frames are what they were, but for the contents of slots at some places. -/
structure Spares (A : FrameId → Nat → Prop) (s s' : Store) : Prop where
  size : s'.frames.size = s.frames.size
  parent : ∀ g, s'.parent? g = s.parent? g
  slot : ∀ g i, ¬A g i → s'.slot? g i = s.slot? g i

lemma Spares.refl (A : FrameId → Nat → Prop) (s : Store) : Spares A s s :=
  ⟨rfl, fun _ => rfl, fun _ _ _ => rfl⟩

lemma Spares.mono (h : Spares A s t) (hA : ∀ g i, A g i → B g i) : Spares B s t :=
  ⟨h.size, h.parent, fun g i hB => h.slot g i fun ha => hB (hA g i ha)⟩

/-- What is done outside frames spares all slots. -/
lemma Spares.of_frames (h : Spares A s t) {t' : Store} (hf : t'.frames = t.frames) :
    Spares A s t' := by
  obtain ⟨frames, blocks, dicts, channels, output⟩ := t
  obtain ⟨frames', blocks', dicts', channels', output'⟩ := t'
  cases hf
  exact ⟨h.size, h.parent, h.slot⟩

lemma Spares.setSlot (h : Spares A s t) {f : FrameId} {i : Nat} (hA : A f i) (v : Value) :
    Spares A s (t.setSlot f i v) := by
  refine ⟨?_, fun g => ?_, fun g j hj => ?_⟩
  · rw [Store.setSlot, Array.size_modify, h.size]
  · rw [parent?_setSlot, h.parent]
  · rw [slot?_setSlot_of_ne (fun hg hji => hj (by rw [hg, hji]; exact hA)), h.slot g j hj]

lemma Spares.ancestor? (h : Spares A s t) (f : FrameId) (l : Nat) :
    t.ancestor? f l = s.ancestor? f l := by
  induction l generalizing f with
  | zero => rfl
  | succ l ih =>
    rw [ancestor?_succ, ancestor?_succ, h.parent]
    exact congrArg _ (funext ih)

end Store

namespace Program

variable {p : Program} {f : FrameId} {id : NodeId} {n : Node} {A : FrameId → Nat → Prop}
  {s : Store}

lemma stable_spares (A : FrameId → Nat → Prop) (s : Store) :
    Stable (Store.Spares A s) fun _ => True where
  plain _ _ := trivial
  fresh _ _ := ⟨trivial, trivial⟩
  element _ _ _ _ _ _ := trivial
  entry _ _ _ _ _ := ⟨trivial, trivial⟩
  newBlock _ _ hs _ := hs.of_frames rfl
  newDict _ _ hs _ _ := hs.of_frames rfl
  insertEntry _ _ _ _ hs _ _ := hs.of_frames rfl
  newChannel _ _ hs := hs.of_frames rfl
  writeLine _ _ hs := hs.of_frames rfl

lemma settable_spares (A : FrameId → Nat → Prop) (s : Store) :
    Settable (Store.Spares A s) fun _ => True := fun _ _ _ _ hs _ _ => hs.of_frames rfl

/-- Every operation that makes no frame writes to its places only. -/
lemma regime_spares (hn : p.node id = .ok n) :
    Regime p f id n (Store.Spares (p.Place s f n) s) (fun _ => True) (fun _ => True) := by
  refine regime_of_setSlot (fun t g i v ht hp => ht.setSlot ?_ v) hn (stable_spares _ s)
    fun _ _ _ ht => ht.of_frames rfl
  rcases hp with hg | ⟨d, hd, m, hm, hlevel, hslot, hg⟩
  · exact .inl hg
  · exact .inr ⟨d, hd, m, hm, hlevel, hslot, by rw [← ht.ancestor?, hg]⟩

end Program

end Flowgraph
