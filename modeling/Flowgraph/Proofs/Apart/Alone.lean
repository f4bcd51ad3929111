import Flowgraph.Proofs.Apart.Merge
import Flowgraph.Proofs.Apart.Transfer
import Flowgraph.Proofs.Call.Everywhere

/-!
# What a chain comes to by itself

A chain that needs nobody else goes one way only, from where it begins to its end. A chain that has
walks below goes the same way above them, and has returned to them in the end.
-/

namespace Flowgraph

open Named Store

variable {p : Program} {s s' s₀ u u' : Store} {c c' d e e' : Chain} {o o' : Outcome}

/-! ### By itself -/

/-- The stages in which a chain needs nobody else, up to its end. -/
def Stage.isSolo : Stage → Bool
  | .walk | .follow | .call _ _ _ | .start _ _ | .deliver _ | .pause _ | .exit _ => true
  | _ => false

/-- The stages in which a chain does something for its topmost walk. -/
def Stage.isWalking : Stage → Bool
  | .walk | .follow | .pause _ => true
  | _ => false

namespace Chain

/-- By itself, a chain comes from one point to another one. -/
inductive Comes (p : Program) (d : Chain) (s : Store) : Chain → Store → Prop
  | start : Comes p d s d s
  | next {e e' : Chain} {u u' : Store} (h : Comes p d s e u) (hn : e.next p u = some (e', u')) :
    Comes p d s e' u'

/-- At its end, a chain has no next step. -/
lemma next_of_exit (h : e.stage = .exit o) (s : Store) : e.next p s = none := by
  simp only [next, h, advance, Option.map_none]

/-- Before its end, a chain that needs nobody else has a next step. -/
lemma exists_next (h : e.stage.isSolo = true) (hexit : ∀ o, e.stage ≠ .exit o) (s : Store) :
    ∃ e' s', e.next p s = some (e', s') := by
  cases hs : e.stage
  case exit o => exact absurd hs (hexit o)
  case pause milliseconds => exact ⟨e.proceed, s, by rw [next, hs]⟩
  case walk | follow | call | start | deliver =>
    simp only [next, hs, advance, Option.map_some, Option.some.injEq]
    exact ⟨_, _, rfl⟩
  all_goals
    rw [hs] at h
    cases h

lemma Comes.trans (h : d.Comes p s e u) (h' : e.Comes p u e' u') : d.Comes p s e' u' := by
  induction h' with
  | start => exact h
  | next _ hn ih => exact .next ih hn

/-- There is one way only: of two points on it, one comes after the other one. -/
lemma Comes.linear (h : d.Comes p s e u) (h' : d.Comes p s e' u') :
    e.Comes p u e' u' ∨ e'.Comes p u' e u := by
  induction h' with
  | start => exact .inr h
  | @next f f' v v' hf hn ih =>
    rcases ih with ih | ih
    · exact .inl (.next ih hn)
    · -- the way from `f` to `e` is empty, or begins with the step to `f'`
      have hsplit : ∀ {g w}, f.Comes p v g w → g = f ∧ w = v ∨ f'.Comes p v' g w := by
        intro g w hg
        induction hg with
        | start => exact .inl ⟨rfl, rfl⟩
        | next hg hn' ih =>
          rcases ih with ⟨rfl, rfl⟩ | ih
          · rw [hn] at hn'
            cases hn'
            exact .inr .start
          · exact .inr (.next ih hn')
      rcases hsplit ih with ⟨rfl, rfl⟩ | ih
      · exact .inl (.next .start hn)
      · exact .inr ih

/-- From its end, a chain comes nowhere else. -/
lemma Comes.of_exit (h : e.Comes p u e' u') (hexit : e.stage = .exit o) : e' = e ∧ u' = u := by
  induction h with
  | start => exact ⟨rfl, rfl⟩
  | next _ hn ih =>
    obtain ⟨rfl, rfl⟩ := ih
    rw [next_of_exit hexit] at hn
    cases hn

/-- A chain has one end only. -/
lemma Comes.unique (h : d.Comes p s e u) (hexit : e.stage = .exit o) (h' : d.Comes p s e' u')
    (hexit' : e'.stage = .exit o') : e' = e ∧ u' = u := by
  rcases h.linear h' with hlater | hlater
  · exact hlater.of_exit hexit
  · obtain ⟨rfl, rfl⟩ := hlater.of_exit hexit'
    exact ⟨rfl, rfl⟩

/-- So many steps a chain has left by itself. -/
inductive Lasts (p : Program) : Chain → Store → Nat → Prop
  | exit {e : Chain} {o : Outcome} (h : e.stage = .exit o) (u : Store) : Lasts p e u 0
  | next {e e' : Chain} {u u' : Store} {n : Nat} (hn : e.next p u = some (e', u'))
    (h : Lasts p e' u' n) : Lasts p e u (n + 1)

lemma Comes.lasts (h : d.Comes p s e u) {n : Nat} (hl : e.Lasts p u n) : ∃ n, d.Lasts p s n := by
  induction h generalizing n with
  | start => exact ⟨n, hl⟩
  | next _ hn ih => exact ih (.next hn hl)

/-- Only at its end a chain has no step left. -/
lemma Lasts.eq_zero_iff {n : Nat} (h : e.Lasts p u n) : n = 0 ↔ ∃ o, e.stage = .exit o := by
  cases h with
  | exit h _ => exact ⟨fun _ => ⟨_, h⟩, fun _ => rfl⟩
  | next hn _ =>
    constructor
    · rintro ⟨⟩
    · rintro ⟨o, ho⟩
      rw [next_of_exit ho] at hn
      cases hn

lemma Lasts.after {n : Nat} (h : e.Lasts p u n) (hn : e.next p u = some (e', u')) :
    ∃ k, n = k + 1 ∧ e'.Lasts p u' k := by
  cases h with
  | exit h _ =>
    rw [next_of_exit h] at hn
    cases hn
  | next hn' h =>
    rw [hn] at hn'
    cases hn'
    exact ⟨_, rfl, h⟩

/-- A job: whatever the chain comes to by itself, its next step reads and writes what it may, and it
comes to its end without anybody else. -/
structure Contained (p : Program) (s₀ : Store) (G : Footprint) (d : Chain) (s : Store) : Prop where
  solo : ∀ e u, d.Comes p s e u → e.stage.isSolo = true
  confined : ∀ e u, d.Comes p s e u → e.Confined p (G.touched s₀) (G.written s₀) u
  ends : ∃ e u o, d.Comes p s e u ∧ e.stage = .exit o

/-- Wherever a job has come to, it has so many steps left. -/
lemma Contained.lasts {G : Footprint} (h : d.Contained p s₀ G s) (hc : d.Comes p s e u) :
    ∃ n, e.Lasts p u n := by
  obtain ⟨f, v, o, hf, hexit⟩ := h.ends
  rcases hc.linear hf with hlater | hlater
  · exact hlater.lasts (.exit hexit v)
  · obtain ⟨rfl, rfl⟩ := hlater.of_exit hexit
    exact ⟨0, .exit hexit _⟩

/-! ### Walks that are there -/

/-- The stage of a chain suits its walks, and if it needs a walk, there is one. -/
structure Regular (p : Program) (c : Chain) : Prop where
  fits : c.Fits p
  walking : c.stage.isWalking = true → c.walks ≠ []

lemma regular_of_walks (h : c.stage.isWalking = false) (hw : c.walks = []) : c.Regular p where
  fits := fits_of_walks hw
  walking he := by
    rw [h] at he
    cases he

lemma Regular.proceed (h : c.Regular p) : c.proceed.Regular p where
  fits := h.fits.proceed
  walking := by
    simp only [Chain.proceed]
    split_ifs with hw
    · intro he
      cases he
    · exact fun _ he => hw (List.isEmpty_iff.mpr he)

lemma Regular.steps (h : c.Regular p) (hsteps : c.Steps p s c' s') : c'.Regular p where
  fits := hsteps.fits h.fits
  walking := by
    cases hsteps with
    | operation hs hw => exact fun _ => by simp [hw]
    | edge | enter => exact fun _ => by simp [Chain.enter]
    | nowhere hs hw => exact fun _ => h.walking (by rw [hs]; rfl)
    | copy hs hw | storing hs hw | visiting hs hw => exact fun _ => by simp [hw]
    | _ => exact fun he => by cases he

/-- A chain stays regular. -/
theorem Regular.next (h : c.Regular p) (hn : c.next p s = some (c', s')) : c'.Regular p := by
  cases ha : c.advance p with
  | some step =>
    rw [next_of_advance ha] at hn
    cases hr : step s with
    | ok d t =>
      rw [hr] at hn
      cases hn
      exact h.steps (steps_of_advance ha hr)
    | error e t =>
      rw [hr] at hn
      cases hn
      refine ⟨h.fits.stopChain e, ?_⟩
      cases e <;> exact fun he => by cases he
  | none =>
    cases hs : c.stage with
    | pause milliseconds =>
      rw [Chain.next, hs] at hn
      cases hn
      exact h.proceed
    | _ => simp [Chain.next, hs, ha] at hn

end Chain

end Flowgraph
