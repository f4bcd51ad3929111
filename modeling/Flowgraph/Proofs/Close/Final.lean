import Flowgraph.Proofs.Close.Alone

/-!
# When closing a channel is final

Values are received in the order in which they were sent, the first close succeeds and no other,
and a receive finds a channel drained only after everything that was sent before has been received.
`lawful_after` says so of every run.

Closing is final when nothing is sent any more on a closed channel. It is, exactly unless a sender
is late: it was past looking whether the channel is closed, and there may come to be room for its
value in the buffer, even after a receive has found the channel drained.
-/

namespace Flowgraph

namespace Machine

variable {m : Machine} {ch : ChannelId} {x : ChainId} {c : Chain} {acts : List Act}

lemma deed?_of_send {v : Value} {phase : SendPhase} {closes : Bool} {next : Stage} {d : Deed}
    (h : Stage.deed? ch closes (.send ch v phase) next = some d) :
    d = .sent v ∨ ∃ e, d = .unsent v e := by
  cases next with
  | follow =>
    rw [Stage.deed?, if_pos rfl] at h
    exact .inl (Option.some.inj h).symm
  | exit outcome =>
    cases outcome with
    | ok vs =>
      rw [Stage.deed?, if_pos rfl] at h
      exact .inl (Option.some.inj h).symm
    | error e =>
      rw [Stage.deed?, if_pos rfl] at h
      exact .inr ⟨e, (Option.some.inj h).symm⟩
  | _ => cases h

/-- A chain is silent, or what it does is among the deeds. -/
lemma Effect.silent_or_deed {m' : Machine} {ds : List Deed} (h : Effect m m' ch ds)
    (x : ChainId) : Silent m m' ch x ∨ ∃ d ∈ ds, m.deed? m' ch x = some d := by
  cases h with
  | quiet h => exact .inl (h x)
  | @single y c c' d _ _ hd _ _ h =>
    by_cases hx : x = y
    · subst hx
      exact .inr ⟨d, List.mem_singleton_self d, hd⟩
    · exact .inl (h x hx)
  | @pass y z _ _ _ _ v _ _ _ _ _ hy hz _ _ _ h =>
    by_cases hxy : x = y
    · subst hxy
      exact .inr ⟨.sent v, List.mem_cons_self, hy⟩
    · by_cases hxz : x = z
      · subst hxz
        exact .inr ⟨.received (some v), List.mem_cons_of_mem _ List.mem_cons_self, hz⟩
      · exact .inl (h x hxy hxz)

/-- A send that is under way is still under way after any act, or has succeeded or failed. -/
lemma send_act (hsane : m.Sane) (hch : ch.index < m.store.channels.size) (a : Act)
    (hc : m.chain? x = some c) {v : Value} {phase : SendPhase} (hs : c.stage = .send ch v phase) :
    (∃ c' phase', (m.act a).chain? x = some c' ∧ c'.stage = .send ch v phase') ∨
      ∃ d ∈ m.deeds ch a, m.deed? (m.act a) ch x = some d ∧
        (d = .sent v ∨ d = .unsent v (.fault .sendOnClosed)) := by
  have hstays : (m.act a).chain? x = m.chain? x →
      ∃ c' phase', (m.act a).chain? x = some c' ∧ c'.stage = .send ch v phase' := fun he =>
    ⟨c, phase, he.trans hc, hs⟩
  cases a with
  | move mv =>
    obtain ⟨ds, heffect, hchanges⟩ := does_step hsane mv ch
    rcases heffect.silent_or_deed x with hsilent | ⟨d, hmem, hd⟩
    · refine .inl ?_
      cases hsilent with
      | same he => exact hstays he
      | quiet hd hd' hquiet =>
        rw [hc] at hd
        cases hd
        obtain ⟨phase', hs'⟩ := hquiet.stays v phase hs
        exact ⟨_, phase', hd', hs'⟩
      | begun hnone _ =>
        simp [hc] at hnone
    · refine .inr ⟨d, by rw [heffect.deeds]; exact hmem, hd, ?_⟩
      have hdeed := hd
      rw [deed?, hc] at hdeed
      cases hc' : (m.step mv).chain? x with
      | none =>
        simp [hc'] at hdeed
      | some c' =>
        rw [deed?_eq hc hc', hs] at hd
        rcases deed?_of_send hd with rfl | ⟨e, rfl⟩
        · exact .inl rfl
        · obtain ⟨-, rfl⟩ := (hchanges.does hch).unsent hmem
          exact .inr rfl
  | host c' hc' =>
    refine .inl (hstays ?_)
    change (m.addChain c').2.chain? x = m.chain? x
    rw [chain?_addChain_eq, if_neg (Nat.ne_of_lt (Array.getElem?_eq_some_iff.mp hc).1)]
  | close ch' => exact .inl (hstays (by rw [chain?, chain?, (chains_close m ch').1]))
  | change f hf => exact .inl (hstays rfl)

/-! ### Draining -/

end Machine

end Flowgraph
