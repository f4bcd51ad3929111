import Mathlib.Tactic.Common
import Flowgraph.Proofs.Apart.Rest
import Flowgraph.Proofs.Hands.Values

/-!
# What is held and what is mentioned

What a store holds, and what a chain has at hand, mentions no other names than the store and the
chain do. So what is known of all values that mention certain names is known of what is held.
-/

namespace Flowgraph

open Named

variable {V : Value → Prop} {W : Activation → Option NodeId → Prop} {B : Activation → Prop}
  {s : Store} {c : Chain}

/-- What a store holds has been given a name before. -/
lemma Store.Closed.holds (h : s.Closed) (hV : ∀ v : Value, Within s.size v → V v) : s.Holds V := by
  constructor
  case slots =>
    refine fun f v hv => hV v fun T k hk => ?_
    simp only [slots, frame] at hv
    cases hf : s.frames[f.index]? with
    | none => simp [hf] at hv
    | some fr =>
      rw [hf] at hv
      exact h.frames T k ⟨fr, Array.mem_of_getElem? hf, .inl ⟨v, hv, hk⟩⟩
  case block =>
    refine fun b v hv => hV v fun T k hk => ?_
    simp only [block] at hv
    cases hb : s.blocks[b.index]? with
    | none => simp [hb] at hv
    | some block =>
      rw [hb] at hv
      exact h.blocks T k ⟨block, Array.mem_of_getElem? hb, v, hv, hk⟩
  case dict =>
    intro d e he
    simp only [dict] at he
    cases hd : s.dicts[d.index]? with
    | none => simp [hd] at he
    | some dict =>
      rw [hd] at he
      have hwithin : ∀ T k, (Mentions e.1 T k ∨ Mentions e.2 T k) → k < s.size T := fun T k hk =>
        h.dicts T k ⟨dict, Array.mem_of_getElem? hd, e, he, hk⟩
      exact ⟨hV _ fun T k hk => hwithin T k (.inl hk), hV _ fun T k hk => hwithin T k (.inr hk)⟩
  case buffer =>
    refine fun ch v hv => hV v fun T k hk => ?_
    simp only [channel] at hv
    cases hch : s.channels[ch.index]? with
    | none => simp [hch] at hv
    | some channel =>
      rw [hch] at hv
      exact h.channels T k ⟨channel, Array.mem_of_getElem? hch, v, hv, hk⟩

section Bears

variable {M : Table → Nat → Prop} (hV : ∀ v : Value, (∀ T k, Mentions v T k → M T k) → V v)
  (hB : ∀ a : Activation, (∀ T k, Mentions a T k → M T k) → B a)

include hV hB

lemma Callee.bears_of_mentions {callee : Callee} (h : ∀ T k, Mentions callee T k → M T k) :
    callee.Bears V B := by
  cases callee with
  | declared a => exact hB a h
  | native name args => exact fun v hv => hV v fun T k hk => h T k ⟨v, hv, hk⟩

omit hB in
lemma Purpose.holds_of_mentions {purpose : Purpose} (h : ∀ T k, Mentions purpose T k → M T k) :
    purpose.Holds V := by
  cases purpose with
  | result => exact trivial
  | visit next => exact hV next h

/-- What a chain has at hand mentions what the chain mentions. -/
lemma Chain.bears_of_mentions (hW : ∀ a node, (∀ T k, Mentions (a : Activation) T k → M T k) →
    W a node) (h : ∀ T k, Mentions c T k → M T k) : c.Bears V W B := by
  constructor
  case walks => exact fun w hw => hW _ _ fun T k hk => h T k (.inl ⟨w, hw, hk⟩)
  case stage =>
    have hstage : ∀ T k, Mentions c.stage T k → M T k := fun T k hk => h T k (.inr hk)
    have hlist : ∀ {vs : List Value}, (∀ T k, Mentions vs T k → M T k) → ∀ v ∈ vs, V v :=
      fun hvs v hv => hV v fun T k hk => hvs T k ⟨v, hv, hk⟩
    cases hs : c.stage
    all_goals rw [hs] at hstage
    case call callee receiver args =>
      refine ⟨hV _ fun T k hk => hstage T k (.inl hk), fun v hv => hV v fun T k hk => ?_, ?_⟩
      · exact hstage T k (.inr (.inl ⟨v, hv, hk⟩))
      · exact hlist fun T k hk => hstage T k (.inr (.inr hk))
    case start | spawn | launch => exact Callee.bears_of_mentions hV hB hstage
    case deliver => exact hlist hstage
    case send => exact hV _ fun T k hk => hstage T k (.inr hk)
    case receive => exact Purpose.holds_of_mentions hV fun T k hk => hstage T k (.inr hk)
    case received =>
      refine ⟨Purpose.holds_of_mentions hV fun T k hk => hstage T k (.inl hk), fun w hw => ?_⟩
      exact hV w fun T k hk => hstage T k (.inr ⟨w, hw, hk⟩)
    case exit outcome | leave outcome | ended outcome =>
      cases outcome with
      | ok vs => exact hlist fun T k hk => hstage T k ⟨vs, rfl, hk⟩
      | error e => exact trivial
    all_goals exact trivial

end Bears

end Flowgraph
