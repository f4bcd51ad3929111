import Mathlib.Tactic.Common
import Flowgraph.Proofs.Apart.Binding
import Flowgraph.Proofs.Hands.Mentions
import Flowgraph.Proofs.Spawn.Layout
import Flowgraph.Proofs.Writes.Places

/-!
# Frames that nobody has come by

The frame of a spawned task is created by the chain that spawns, which passes it on to the task's
own chain. Until the task is on its way nothing else refers to the frame: no value that is held
anywhere, no link of another frame, and no activation. So nobody can write to it.
-/

namespace Flowgraph

open Named

variable {g : FrameId} {p : Program} {s : Store}

/-- A value does not refer to a frame. -/
def Value.Misses (g : FrameId) (v : Value) : Prop := ¬Mentions v .frames g.index

/-- Nothing in a store refers to a frame that is there: neither a value nor the link of a frame. -/
structure Store.Hides (g : FrameId) (s : Store) : Prop where
  inside : g.index < s.frames.size
  held : s.Holds (Value.Misses g)
  unlinked : ∀ f, s.parent? f ≠ some g

namespace Value

lemma misses_plain {v : Value} (h : v.isPlain = true) : v.Misses g := by
  cases v with
  | func decl env => cases h
  | pointer b i => cases h
  | slice b | struct b => cases h
  | map d => exact fun hm => by cases hm.1
  | chan c => exact fun hm => by cases hm.1
  | _ => exact id

lemma misses_pointer (b : BlockId) (i : Nat) : (pointer b i).Misses g := fun h => by cases h.1

lemma misses_of_ne_func {v : Value} (h : ∀ decl env, v ≠ .func decl env) : v.Misses g := by
  cases v with
  | func decl env => exact absurd rfl (h decl env)
  | pointer b i => exact misses_pointer b i
  | slice b | struct b => exact fun hm => by cases hm.1
  | _ => exact misses_plain rfl

lemma Misses.ne {decl : NodeId} {f : FrameId} (h : (func decl (some f)).Misses g) : f ≠ g := by
  rintro rfl
  exact h ⟨f, rfl, rfl, rfl⟩

lemma misses_func {decl : NodeId} {f : FrameId} (h : f ≠ g) : (func decl (some f)).Misses g := by
  rintro ⟨f', hf, -, hindex⟩
  cases hf
  exact h (congrArg FrameId.mk hindex.symm)

end Value

/-! ### Sources -/

/-- From a frame that nothing refers to, no program makes anything. -/
lemma Program.sources_misses (hp : p.Loaded) (hg : g ≠ globalFrame) :
    p.Sources (Value.Misses g) (fun a _ => a.frame ≠ g) (fun a => a.frame ≠ g)
      fun s => g.index < s.frames.size ∧ ∀ f, s.parent? f ≠ some g where
  plain _ := Value.misses_plain
  block _ := ⟨Value.misses_of_ne_func fun _ _ => Value.noConfusion,
    Value.misses_of_ne_func fun _ _ => Value.noConfusion⟩
  constant _ _ hn := hp.not_mentions_constant hn _ _
  closure _ _ _ _ hw _ _ := Value.misses_func hw
  enter _ := id
  successor a id s hw := (ends_any _).mono fun _ _ => hw
  stable := Stable.of_frames fun s s' hs h => by
    simp only [Store.parent?, Store.frame, hs]
    exact h
  settable := Settable.of_frames fun s s' hs h => by
    simp only [Store.parent?, Store.frame, hs]
    exact h
  setSlot s f i v h := by
    refine ⟨?_, fun f' => ?_⟩
    · rw [Store.setSlot, Array.size_modify]
      exact h.1
    · rw [Store.parent?_setSlot]
      exact h.2 f'
  close _ _ h := h
  begin s slots parent decl d h _ hparent := by
    have hne : s.nextFrame ≠ g := by
      rintro rfl
      exact Nat.lt_irrefl _ h.1
    have hlink : parent ≠ g := by
      rcases hparent with ⟨a, _, ha, rfl⟩ | ⟨decl, env, hv, rfl⟩
      · exact ha
      · cases env with
        | none => exact hg.symm
        | some f => exact hv.ne
    refine ⟨⟨?_, fun f => ?_⟩, hne⟩
    · rw [Store.withFrame, Array.size_push]
      exact Nat.lt_succ_of_lt h.1
    · rw [Store.parent?, Store.frame_withFrame]
      split_ifs
      · exact fun he => hlink (Option.some.inj he)
      · exact h.2 f

/-- A program makes nothing of a frame that is hidden. -/
lemma Store.Hides.hands (hs : s.Hides g) (hp : p.Loaded) (hn : p.natives.Faithful)
    (hg : g ≠ globalFrame) :
    p.Hands s (Store.Keeping (Value.Misses g) fun s => g.index < s.frames.size ∧
      ∀ f, s.parent? f ≠ some g) (Value.Misses g) (fun a _ => a.frame ≠ g) fun a => a.frame ≠ g :=
  (Program.sources_misses hp hg).hands ⟨hs.held, hs.inside, hs.unlinked⟩
    (fun b i _ => Value.misses_pointer b i)
    fun _ _ _ hname ha => hn.bears (fun _ => Value.misses_of_ne_func) hs.held hname ha

/-! ### Chains -/

/-- A chain has nothing at hand that refers to a frame. -/
abbrev Chain.Misses (g : FrameId) (c : Chain) : Prop :=
  c.Bears (Value.Misses g) (fun a _ => a.frame ≠ g) fun a => a.frame ≠ g

/-- What mentions a frame nowhere has nothing at hand that refers to it. -/
lemma Chain.misses_of_mentions {c : Chain} (h : ¬Mentions c .frames g.index) : c.Misses g := by
  have hM : ∀ T k, Mentions c T k → T = .frames → k ≠ g.index := by
    rintro T k hk rfl rfl
    exact h hk
  have hframe : ∀ a : Activation, (∀ T k, Mentions a T k → T = .frames → k ≠ g.index) →
      a.frame ≠ g := by
    rintro a ha rfl
    exact ha .frames _ ⟨rfl, rfl⟩ rfl rfl
  exact Chain.bears_of_mentions (M := fun T k => T = .frames → k ≠ g.index)
    (fun v hv hm => hv .frames _ hm rfl rfl) hframe (fun a _ => hframe a) hM

/-- What has been given a name before a frame does not refer to the frame. -/
lemma not_mentions_of_within {α : Type} [Named α] {x : α} (h : Within s.size x)
    (hg : s.frames.size ≤ g.index) : ¬Mentions x .frames g.index :=
  fun hm => absurd (h .frames g.index hm) (Nat.not_lt.mpr hg)

/-- What a store holds has been given a name before. -/
lemma Store.Closed.misses (h : s.Closed) (hg : s.frames.size ≤ g.index) :
    s.Holds (Value.Misses g) := h.holds fun _ hv => not_mentions_of_within hv hg

/-- A frame that was just added is hidden, if what is in it was there before. -/
lemma Store.Closed.hides (h : s.Closed) {slots : Array Value} {parent : FrameId}
    (hslots : ∀ v ∈ slots, Within s.size v) (hparent : parent.index < s.frames.size) :
    (s.withFrame slots parent).Hides s.nextFrame := by
  have hself : s.frames.size ≤ s.nextFrame.index := Nat.le_refl _
  constructor
  case inside =>
    rw [withFrame, Array.size_push]
    exact Nat.lt_succ_self _
  case held =>
    exact (h.misses hself).withFrame (fun v hv => not_mentions_of_within (hslots v hv) hself) parent
  case unlinked =>
    intro f he
    rw [parent?, frame_withFrame] at he
    split_ifs at he
    · cases he
      exact Nat.lt_irrefl _ hparent
    · simp only [frame] at he
      cases hf : s.frames[f.index]? with
      | none =>
        rw [hf] at he
        cases he
      | some fr =>
        rw [hf] at he
        exact not_mentions_of_within h.frames hself
          ⟨fr, Array.mem_of_getElem? hf, .inr ⟨_, he, rfl, rfl⟩⟩

/-! ### Nobody writes -/

/-- Whoever lies further out is linked to. -/
lemma Store.exists_parent {f : FrameId} {n : Nat} (h : s.ancestor? f (n + 1) = some g) :
    ∃ f', s.parent? f' = some g := by
  induction n generalizing f with
  | zero =>
    refine ⟨f, ?_⟩
    rw [ancestor?_succ] at h
    cases hf : s.parent? f with
    | none =>
      rw [hf] at h
      cases h
    | some f' =>
      rw [hf] at h
      exact h
  | succ n ih =>
    rw [ancestor?_succ] at h
    cases hf : s.parent? f with
    | none =>
      rw [hf] at h
      cases h
    | some f' =>
      rw [hf] at h
      exact ih h

/-- To a hidden frame, no chain writes that has nothing at hand that refers to it. -/
lemma Chain.Misses.not_writes {c : Chain} (h : c.Misses g) (hs : s.Hides g) (i : Nat) :
    ¬c.Writes p s g i := by
  intro hw
  cases hw with
  | operation hw hn hc hstage hp =>
    rcases hp with hp | ⟨d, -, m, -, hlevel, -, hancestor⟩
    · exact h.walks _ (hw ▸ List.mem_cons_self) hp.symm
    · obtain ⟨level, hlevel⟩ := Nat.exists_eq_add_of_le' hlevel
      rw [hlevel] at hancestor
      obtain ⟨f, hf⟩ := Store.exists_parent hancestor
      exact hs.unlinked f hf
  | results hw hn hstage hslot hp hi => exact h.walks _ (hw ▸ List.mem_cons_self) hp.symm

end Flowgraph
