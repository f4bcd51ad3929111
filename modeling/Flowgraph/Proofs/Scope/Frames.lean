import Mathlib.Tactic.Common
import Flowgraph.Proofs.Scope.Layout

/-!
# Frames and scopes

Every frame belongs to a scope, which is noted when the frame is made and never changes. Frames
are as large as their scopes ask for and link to frames of the scopes further out, and closures
are closures over frames of the scopes that their functions lie in. So every slot that a node
denotes exists.
-/

namespace Flowgraph

/-- The scopes that frames belong to, in the order in which the frames were made. -/
abbrev Scopes := Array Scope

namespace Scopes

/-- The scope of a frame. -/
def of? (σ : Scopes) (f : FrameId) : Option Scope := σ[f.index]?

/-- More frames were made. -/
def Extends (σ σ' : Scopes) : Prop := ∀ f S, σ.of? f = some S → σ'.of? f = some S

variable {σ σ' σ'' : Scopes}

lemma Extends.refl (σ : Scopes) : σ.Extends σ := fun _ _ h => h

lemma Extends.trans (h : σ.Extends σ') (h' : σ'.Extends σ'') : σ.Extends σ'' :=
  fun f S hf => h' f S (h f S hf)

lemma extends_push (σ : Scopes) (S : Scope) : σ.Extends (σ.push S) := by
  intro f T hf
  have hlt : f.index < σ.size := (Array.getElem?_eq_some_iff.mp hf).1
  rw [of?, Array.getElem?_push, if_neg (by omega)]
  exact hf

end Scopes

/-! ### Values and stores -/

namespace Layout

variable {L : Layout} {p : Program} {σ σ' : Scopes} {s : Store}

/-- A function is a top-level function, or a closure over a frame of the scope that it lies
in. -/
def Knows (L : Layout) (σ : Scopes) : Value → Prop
  | .func decl none => L.parent decl = none
  | .func decl (some env) => σ.of? env = some (L.parent decl)
  | _ => True

lemma Knows.mono (h : σ.Extends σ') {v : Value} (hv : L.Knows σ v) : L.Knows σ' v := by
  cases v with
  | func decl env =>
    cases env with
    | none => exact hv
    | some env => exact h env _ hv
  | _ => exact trivial

lemma knows_plain {v : Value} (hv : ∀ decl env, v ≠ .func decl env) : L.Knows σ v := by
  cases v with
  | func decl env => exact absurd rfl (hv decl env)
  | _ => exact trivial

/-- The frame that a known function links to belongs to the scope that the function lies in. -/
lemma Knows.lexicalParent {decl : NodeId} {env : Option FrameId}
    (hg : σ.of? globalFrame = some none) (h : L.Knows σ (.func decl env)) :
    σ.of? (lexicalParent env) = some (L.parent decl) := by
  cases env with
  | none =>
    rw [show L.parent decl = none from h]
    exact hg
  | some env => exact h

/-- The frames of a store are as their scopes say, and so are all values that it holds. -/
structure Describes (L : Layout) (p : Program) (σ : Scopes) (s : Store) : Prop where
  count : σ.size = s.frames.size
  top : σ.of? globalFrame = some none
  size : ∀ f S, σ.of? f = some S → s.frameSize f = p.scopeSize S
  outer : ∀ f decl, σ.of? f = some (some decl) →
    ∃ g, s.parent? f = some g ∧ σ.of? g = some (L.parent decl)
  holds : s.Holds (L.Knows σ)

/-- Where a scope has one further out, a frame of it has one of that scope further out. -/
lemma Describes.ancestor (h : L.Describes p σ s) {f : FrameId} {S T : Scope} {l : Nat}
    (hf : σ.of? f = some S) (hT : L.enclosing S l = some T) :
    ∃ g, s.ancestor? f l = some g ∧ σ.of? g = some T := by
  induction l generalizing f S with
  | zero =>
    cases hT
    exact ⟨f, Store.ancestor?_zero s f, hf⟩
  | succ l ih =>
    cases S with
    | none => cases hT
    | some decl =>
      obtain ⟨g, hg, hgS⟩ := h.outer f decl hf
      obtain ⟨g', hg', hgT⟩ := ih hgS hT
      refine ⟨g', ?_, hgT⟩
      rw [Store.ancestor?_succ, hg]
      exact hg'

/-! ### What keeps a description -/

section Changes

variable (h : L.Describes p σ s)

include h

/-- What changes no frame keeps the description, if known values are held. -/
lemma Describes.of_frames {s' : Store} (hf : s'.frames = s.frames)
    (hv : s'.Holds (L.Knows σ)) : L.Describes p σ s' where
  count := hf ▸ h.count
  top := h.top
  size f S hS := by
    rw [← h.size f S hS]
    simp only [Store.frameSize, Store.slots, Store.frame, hf]
  outer f decl hS := by
    obtain ⟨g, hg, hgS⟩ := h.outer f decl hS
    refine ⟨g, ?_, hgS⟩
    rw [← hg]
    simp only [Store.parent?, Store.frame, hf]
  holds := hv

lemma Describes.setSlot (f : FrameId) (i : Nat) {v : Value} (hv : L.Knows σ v) :
    L.Describes p σ (s.setSlot f i v) where
  count := by
    rw [h.count]
    exact Array.size_modify.symm
  top := h.top
  size g S hS := by
    rw [← h.size g S hS]
    exact Store.frameSize_setSlot f i v g
  outer g decl hS := by
    obtain ⟨g', hg', hgS⟩ := h.outer g decl hS
    exact ⟨g', by rw [← hg']; exact Store.parent?_setSlot f i v g, hgS⟩
  holds := h.holds.setSlot f i hv

/-- One more frame belongs to one more scope. -/
lemma Describes.withFrame {decl : NodeId} {parent : FrameId} {slots : Array Value}
    (hp : σ.of? parent = some (L.parent decl)) (hs : slots.size = p.scopeSize (some decl))
    (hv' : ∀ v ∈ slots, L.Knows σ v) :
    L.Describes p (σ.push (some decl)) (s.withFrame slots parent) := by
  have hext : σ.Extends (σ.push (some decl)) := Scopes.extends_push σ _
  have hcases : ∀ f S, Scopes.of? (σ.push (some decl)) f = some S →
      f = s.nextFrame ∧ S = some decl ∨ f ≠ s.nextFrame ∧ σ.of? f = some S := by
    intro f S hS
    rw [Scopes.of?, Array.getElem?_push] at hS
    by_cases hf : f.index = σ.size
    · rw [if_pos hf] at hS
      cases hS
      refine .inl ⟨?_, rfl⟩
      cases f
      exact congrArg FrameId.mk (hf.trans h.count)
    · rw [if_neg hf] at hS
      refine .inr ⟨fun he => hf ?_, hS⟩
      rw [he, h.count]
      rfl
  refine ⟨?_, hext _ _ h.top, fun f S hS => ?_, fun f d hS => ?_, ?_⟩
  · rw [Array.size_push, h.count]
    exact (Array.size_push _).symm
  · rw [Store.frameSize, Store.slots, Store.frame_withFrame]
    rcases hcases f S hS with ⟨rfl, rfl⟩ | ⟨hne, hS⟩
    · rw [if_pos rfl, hs]
    · rw [if_neg hne]
      exact h.size f S hS
  · rw [Store.parent?, Store.frame_withFrame]
    rcases hcases f (some d) hS with ⟨rfl, hd⟩ | ⟨hne, hS⟩
    · cases hd
      exact ⟨parent, by rw [if_pos rfl], hext _ _ hp⟩
    · obtain ⟨g, hg, hgS⟩ := h.outer f d hS
      exact ⟨g, by rw [if_neg hne]; exact hg, hext _ _ hgS⟩
  · exact (h.holds.mono fun v hv => hv.mono hext).withFrame (fun v hv => (hv' v hv).mono hext) _

end Changes

end Layout

end Flowgraph
