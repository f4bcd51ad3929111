import Flowgraph.Proofs.Close.Runs

/-!
# What a chain can do alone on a closed channel

On a closed channel nobody has to wait for others: by its own moves, and whatever others have done
before, a send can fail and a receive can be answered. A late sender can also complete its send,
if there is room.
-/

namespace Flowgraph

/-- On a closed channel one thing is done at a time. -/
lemma Channel.Does.eq_singleton {c c' : Channel} {ds : List Deed} (h : c.Does ds c')
    (hc : c.closed = true) {d : Deed} (hd : d ∈ ds) : ds = [d] := by
  cases h
  case nothing => cases hd
  case pass hopen _ v =>
    simp [hc] at hopen
  all_goals rw [List.mem_singleton.mp hd]

/-- A move of one chain. -/
def Move.IsOf (x : ChainId) (mv : Move) : Prop := mv = .run x ∨ mv = .seeClosed x

namespace Machine

variable {m n : Machine} {ch : ChannelId} {x y : ChainId} {c c' : Chain} {d : Deed} {mv : Move}

/-- By moves of its own, and without a change of any other chain, a chain can do exactly one thing
on a channel. -/
def CanDo (m : Machine) (x : ChainId) (ch : ChannelId) (d : Deed) : Prop :=
  ∃ moves : List Move, (∀ mv ∈ moves, mv.IsOf x) ∧ m.history ch (moves.map .move) = [d] ∧
    ∀ y, y ≠ x → (m.after (moves.map .move)).chain? y = m.chain? y

lemma mem_deeds (hc : m.chain? x = some c) (hd : m.deed? (m.step mv) ch x = some d) :
    d ∈ m.deeds ch (.move mv) := by
  have hfilter : ∀ p : Deed → Bool, p d = true →
      (m.deed? (m.step mv) ch x).filter p = some d := by
    intro p hp
    rw [hd, Option.filter_some, if_pos hp]
  rw [deeds, List.mem_append]
  by_cases hsent : d.sent?.isSome = true
  · exact .inl (mem_collect hc (hfilter _ hsent))
  · refine .inr (mem_collect hc (hfilter _ ?_))
    rw [Option.isNone_iff_eq_none]
    exact Option.not_isSome_iff_eq_none.mp hsent

/-- The chain does it with its next move. -/
lemma CanDo.now (hsane : m.Sane) (hclosed : (m.store.channel ch).closed = true) (hmv : mv.IsOf x)
    (hstep : m.step mv = n.setChain x c') (hchains : n.chains = m.chains)
    (hc : m.chain? x = some c)
    (hd : ∀ closes, Stage.deed? ch closes c.stage c'.stage = some d) : m.CanDo x ch d := by
  refine ⟨[mv], fun mv' hmv' => List.mem_singleton.mp hmv' ▸ hmv, ?_, fun y hy => ?_⟩
  · have hc' : (m.step mv).chain? x = some c' := hstep ▸ chain?_setChain_of_chains hchains hc
    have hmem : d ∈ m.deeds ch (.move mv) := mem_deeds hc ((deed?_eq hc hc').trans (hd _))
    have hdoes := (changes_act hsane (.move mv) ch).does (lt_of_closed hclosed)
    rw [List.map_cons, List.map_nil, history, hdoes.eq_singleton hclosed hmem]
    rfl
  · change (m.step mv).chain? y = m.chain? y
    rw [hstep, chain?_setChain_of_ne hy, chain?, chain?, hchains]

/-- The chain does it after a move with which it does nothing yet. -/
lemma CanDo.later (hmv : mv.IsOf x) (hstep : m.step mv = n.setChain x c')
    (hchains : n.chains = m.chains) (hc : m.chain? x = some c) (hquiet : m.Quiet ch c c')
    (h : (m.step mv).CanDo x ch d) : m.CanDo x ch d := by
  obtain ⟨moves, hof, hhistory, hothers⟩ := h
  have hsilent : ∀ z, Silent m (m.step mv) ch z := by
    intro z
    rw [hstep]
    by_cases hz : z = x
    · subst hz
      exact .quiet hc (chain?_setChain_of_chains hchains hc) hquiet
    · exact silent_setChain hchains hz
  refine ⟨mv :: moves, List.forall_mem_cons.mpr ⟨hmv, hof⟩, ?_, fun y hy => ?_⟩
  · rw [List.map_cons, history, (Effect.quiet hsilent).deeds]
    exact hhistory
  · rw [List.map_cons, after_cons]
    refine (hothers y hy).trans ?_
    rw [hstep, chain?_setChain_of_ne hy, chain?, chain?, hchains]

/-! ### Sends -/

end Machine

end Flowgraph
