import Flowgraph.Proofs.Apart.Alone
import Flowgraph.Proofs.Apart.Binding

/-!
# Jobs that are known step by step

A job is contained if its first step is and the rest of it is. A step is confined to any locations
if it does not look at the store at all, or if it overwrites a slot and looks at nothing else than
what it may.
-/

namespace Flowgraph

open Named Store

namespace Chain

variable {p : Program} {s s' s₀ u : Store} {d d' e : Chain} {G : Footprint} {o : Outcome}

/-- A chain that has come somewhere is where it began, or has made the first step. -/
lemma Comes.split (h : d.Comes p s e u) (hn : d.next p s = some (d', s')) :
    e = d ∧ u = s ∨ d'.Comes p s' e u := by
  induction h with
  | start => exact .inl ⟨rfl, rfl⟩
  | next _ hn' ih =>
    rcases ih with ⟨rfl, rfl⟩ | ih
    · rw [hn] at hn'
      cases hn'
      exact .inr .start
    · exact .inr (.next ih hn')

/-- At its end, a job is contained. -/
lemma Contained.of_exit (h : d.stage = .exit o) : d.Contained p s₀ G s := by
  constructor
  case solo =>
    intro e u he
    rw [(he.of_exit h).1, h]
    rfl
  case confined =>
    intro e u he c' s' hn
    rw [(he.of_exit h).1, next_of_exit h] at hn
    cases hn
  case ends => exact ⟨d, s, o, .start, h⟩

/-- A job is contained if its first step is confined, and the rest of it is contained. -/
lemma Contained.of_next (hsolo : d.stage.isSolo = true)
    (hconfined : d.Confined p (G.touched s₀) (G.written s₀) s)
    (hn : d.next p s = some (d', s')) (h : d'.Contained p s₀ G s') : d.Contained p s₀ G s := by
  constructor
  case solo =>
    intro e u he
    rcases he.split hn with ⟨rfl, rfl⟩ | he
    · exact hsolo
    · exact h.solo e u he
  case confined =>
    intro e u he
    rcases he.split hn with ⟨rfl, rfl⟩ | he
    · exact hconfined
    · exact h.confined e u he
  case ends =>
    obtain ⟨e, u, o, he, hexit⟩ := h.ends
    exact ⟨e, u, o, Comes.trans (.next .start hn) he, hexit⟩

section

variable (hp : p.Loaded) (hn : p.natives.Blind) (hs : s.Closed) (hd : Flowgraph.Within s.size d)
  (hsolo : d.stage.isSolo = true)

include hp hn hs hd hsolo

/-- The first step does the same in all stores: it needs nothing from there. -/
lemma Contained.of_quiet (d' : Chain) (hquiet : ∀ t, d.next p t = some (d', t))
    (h : Flowgraph.Within s.size d' → d'.Contained p s₀ G s) : d.Contained p s₀ G s := by
  obtain ⟨-, -, hd'⟩ := closed_next hp hn (hquiet s) hs hd
  refine .of_next hsolo (fun e u he σ t hσ hf hview => ?_) (hquiet s) (h hd')
  rw [hquiet] at he
  cases he
  refine ⟨t, ?_, Op.effect_same hview hf fun l hl => Footprint.touched_of_written hl⟩
  rw [hquiet, hd'.rename_self hσ]

/-- The first step overwrites a slot, and reads at most what the job may touch. -/
lemma Contained.of_setSlot (d' : Chain) (f : FrameId) (i : Nat) (v : Value)
    (hf : f.index < s.frames.size)
    (hi : i < s.frameSize f) (hmem : Location.slot f i ∈ G.written s₀)
    (hv : Flowgraph.Within s.size v)
    (hset : ∀ σ t, Keeps σ s → View σ (G.touched s₀) s t →
      d.next p t = some (d', t.setSlot f i v))
    (h : (s.setSlot f i v).Closed → Flowgraph.Within (s.setSlot f i v).size d' →
      d'.Contained p s₀ G (s.setSlot f i v)) : d.Contained p s₀ G s := by
  have hnext : d.next p s = some (d', s.setSlot f i v) := by
    refine hset .id s (fun _ _ _ => rfl)
      ⟨rfl, fun _ _ _ _ _ h => h, fun T k _ => ?_, fun l _ _ => ?_⟩
    · rw [rename_id]
      rfl
    · rw [rename_id, rename_id]
  obtain ⟨-, hs', hd'⟩ := closed_next hp hn hnext hs hd
  refine .of_next hsolo (fun e u he σ t hσ hfresh hview => ?_) hnext (h hs' hd')
  rw [hnext] at he
  cases he
  have hkeeps : Keeps σ (s.setSlot f i v) := fun T k hk => hσ T k (by rwa [size_setSlot] at hk)
  have hframe : rename σ f = f := congrArg FrameId.mk (hσ .frames f.index hf)
  refine ⟨t.setSlot f i v, by rw [hset σ t hσ hview, hd'.rename_self hkeeps], ?_⟩
  have heffect := effect_setSlot hview hfresh hf hi (Op.frameSize_of_view hview hfresh f) v
  rw [hframe, hv.rename_self hσ] at heffect
  exact heffect.mono hview hfresh (Set.singleton_subset_iff.mpr hmem)
    fun l hl _ => Footprint.touched_of_written hl

end

end Chain

end Flowgraph
