import Flowgraph.Proofs.Apart.Moves

/-!
# How jobs begin

Nothing that is read where a call is bound was written by the jobs before it. So the call is bound
in the common store as it is in the store that all jobs begin with, or cannot be bound in either of
them.
-/

namespace Flowgraph

open Named Store

namespace Jobs

variable {J : Jobs} {k i : Nat} {P : Plan} {m m' : Machine} {x : ChainId} {c d : Chain} {r : Role}
  {node : NodeId} {op : String} {callee : Callee} {e : Stop} {s s' t : Store}

/-- The share of a job that begins in a common store. -/
def first (J : Jobs) (i : Nat) (s : Store) : Share :=
  ⟨extended .id J.start.store s, (J.entry i).2⟩

lemma entry_of_ok (h : J.bindCall i = .ok callee s) :
    J.entry i = ({ stage := .start 1 callee }, s) := by
  rw [bindCall] at h
  rw [entry, Program.entry, h]

/-- A job that cannot be bound has come to its end. -/
lemma entry_of_error (hJ : J.Independent) (hi : i < J.count) (h : J.bindCall i = .error e s) :
    (∀ c, Machine.stopChain c e = c.exit (.error e)) ∧
      J.entry i = (Chain.exit { stage := .walk } (.error e), s) := by
  have hsolo := (hJ.contained i hi).solo _ _ .start
  rw [bindCall] at h
  rw [entry, Program.entry, h] at hsolo ⊢
  cases e with
  | endless => cases hsolo
  | fault | panic => exact ⟨fun _ => rfl, rfl⟩

/-- Binding a call in the common store comes to the same, up to the names of what it creates. -/
inductive Opened (J : Jobs) (i : Nat) (P : Plan) (s : Store) :
    EStateM.Result Stop Store Callee → Prop
  | bound {callee : Callee} {s' t : Store} (hb : J.bindCall i = .ok callee s')
    (hm : Merged J.start.store J.footprint (Function.update P.shares i (some (J.first i s))) t) :
    Opened J i P s (.ok (rename (J.first i s).names callee) t)
  | refused {e : Stop} {s' t : Store} (hb : J.bindCall i = .error e s')
    (hm : Merged J.start.store J.footprint (Function.update P.shares i (some (J.first i s))) t) :
    Opened J i P s (.error e t)

namespace Crew

variable (hJ : J.Independent) (hp : J.start.program.Loaded) (hs : J.start.store.Closed)
  (h : J.Crew k P m)

include hJ hs h

/-- Where a call is bound, the common store looks as in the beginning. -/
lemma view_operands (hk : k < J.count) (hnone : P.shares k = none) :
    View .id (J.operands k) J.start.store m.store := by
  refine h.merged.view_untouched hs (fun l hl j g hj hw => ?_) fun _ _ _ => rfl
  obtain ⟨-, hjk, -⟩ := h.known j g hj
  have hne : j ≠ k := by
    rintro rfl
    rw [hnone] at hj
    cases hj
  exact hJ.later j k (Nat.lt_of_le_of_ne hjk hne) hk l hw hl

include hp

lemma opened (hk : k < J.count) (hnone : P.shares k = none)
    (hsame : J.start.program.bindingOf globalFrame node op m.store =
      J.start.program.bindingOf globalFrame (J.call k) "call" J.start.store) :
    J.Opened k P m.store (J.start.program.bindCall globalFrame node op m.store) := by
  have hspares : ∀ j g, j ≠ k → P.shares j = some g →
      (J.footprint k).Spares (J.footprint j) ∧ (J.footprint j).Spares (J.footprint k) := by
    intro j g hj hg
    have hlt := (h.known j g hg).1
    exact ⟨hJ.apart k hk j hlt hj.symm, hJ.apart j hlt k hk hj⟩
  have hjoin := h.merged.join hs hnone fun j g hj hg => (hspares j g hj hg).2
  have hself : Function.update P.shares k (some ⟨.id, J.start.store⟩) k =
      some ⟨.id, J.start.store⟩ := Function.update_self ..
  have hview := (hjoin.view k _ hself).congr hs fun T j hj =>
    extended_of_lt (ρ := .id) (t := m.store) hj
  have hfresh := fresh_extended .id J.start.store m.store
  have hbeyond : J.start.store.beyond ⊆ (J.footprint k).written J.start.store :=
    fun l hl hw => absurd hw hl
  have htouched : (J.footprint k).written J.start.store ⊆ (J.footprint k).touched J.start.store :=
    fun l hl => Footprint.touched_of_written hl
  have hmirrors := (Program.mirrors_bindCall hview hfresh (hbeyond.trans htouched)
    (fun T j hj => extended_of_lt hj) hp hs hsame).mono hview hfresh hbeyond htouched
  have hfirst : ∀ {s' t : Store}, (J.entry k).2 = s' →
      Effect (extended .id J.start.store m.store) ((J.footprint k).written J.start.store)
        J.start.store s' m.store t →
      Merged J.start.store J.footprint
        (Function.update P.shares k (some (J.first k m.store))) t := by
    rintro s' t rfl he
    have hstep := hjoin.step hself (fun j g hj hg => ?_)
      (Program.sound_entry hp hs (J.call k)).2.1 he
    · rwa [Function.update_idem] at hstep
    · rw [Function.update_of_ne hj] at hg
      exact (hspares j g hj hg).1
  have hentry : ∀ {e s}, J.bindCall k = .error e s → (J.entry k).2 = s := by
    intro e s hb
    rw [bindCall] at hb
    rw [entry, Program.entry, hb]
  generalize hb : J.start.program.bindCall globalFrame (J.call k) "call" J.start.store = result
    at hmirrors
  generalize J.start.program.bindCall globalFrame node op m.store = result' at hmirrors
  cases hmirrors with
  | ok he => exact .bound hb (hfirst (congrArg Prod.snd (entry_of_ok hb)) he)
  | error he => exact .refused hb (hfirst (hentry hb) he)

omit hJ hp hs in
/-- A job has begun. -/
lemma shift_opening (hx : P.roles x = .opens k node) (hc : m.chain? x = some c)
    (ha : m.Alters x d t m') (hr : r.job? = some k) (hopens : r.isOpening = false)
    (hmerged : Merged J.start.store J.footprint
      (Function.update P.shares k (some (J.first k m.store))) t)
    (hd : J.Plays (P.advance k (J.first k m.store) (J.entry k).1) r d)
    (hturnover : J.Turnover m.launcher.started P.roles (Function.update P.roles x r)
      m.launcher.started)
    (hleft : ∀ n, (J.entry k).1.Lasts J.start.program (J.entry k).2 n →
      ∃ n' < 2 * n + 12, J.Left (P.advance k (J.first k m.store) (J.entry k).1) r d n') :
    J.Shift k P m x c ((P.advance k (J.first k m.store) (J.entry k).1).assign x r) m' := by
  have hjob : (P.roles x).job? = some k := by rw [hx]; rfl
  have hlt : k < J.count := by
    have hplays := h.plays x c hc
    rw [hx] at hplays
    cases hplays with
    | opens hi => exact hi
  refine ⟨h.move ha hjob hr hopens hlt (Nat.le_refl k) .start hmerged hd, ha.started ▸ hturnover,
    fun y e hy he => ⟨(ha.others y hy).trans he, Plan.assign_of_ne hy r⟩,
    fun _ _ hy he => (ha.not_created hc hy he).elim,
    fun j hj => P.sameFor_advance ?_ _ _, fun n hn => ?_⟩
  · rintro rfl
    exact hj hjob
  rw [hx] at hn
  cases hn with
  | opens _ hl =>
    obtain ⟨n', hlt', hl'⟩ := hleft _ hl
    refine ⟨d, n', ha.self, ?_, .inl hlt'⟩
    rw [Plan.assign_self]
    exact hl'.congr fun _ _ => ⟨rfl, rfl⟩

omit hJ hp hs h in
lemma left_serving {Q : Plan} {base : List Walk} {g : Share} (hg : Q.shares k = some g)
    (hpoint : Q.points k = (J.entry k).1) (hstore : g.store = (J.entry k).2) (n : Nat)
    (hl : (J.entry k).1.Lasts J.start.program (J.entry k).2 n) :
    ∃ n' < 2 * n + 12, J.Left Q (.serves k base none) d n' := by
  refine ⟨d.due n, ?_, .serves d hg (by rwa [hpoint, hstore])⟩
  have hdue := d.due_le n
  omega

/-- At its node, a job is called. -/
lemma step_call (hx : P.roles x = .opens k (J.call k)) (hc : m.chain? x = some c) :
    ∃ Q, J.Shift k P m x c Q (m.step (.run x)) := by
  have hplays := h.plays x c hc
  rw [hx] at hplays
  cases hplays with
  | opens hk _ hnone =>
    obtain ⟨-, n, -, hn, -, hkind, -, -, hslot⟩ := (hJ.pair k hk).nodes
    have hsame := hJ.bound k hk m.store (h.view_operands hJ hs hk hnone)
    have hopened := h.opened hJ hp hs hk hnone hsame
    have hnext := Chain.next_atNode "call" .call hn (by rw [hkind]; rfl) m.store
    generalize J.start.program.bindCall globalFrame (J.call k) "call" m.store = result
      at hopened hnext
    have hbelow : J.start.program.Below [.atNode (J.call k)] :=
      .inr ⟨_, n, rfl, hn, hslot, (hJ.pair k hk).lastCall⟩
    have hshare := P.share_advance k (J.first k m.store) (J.entry k).1
    have hpoint := P.point_advance k (J.first k m.store) (J.entry k).1
    rw [← h.program] at hnext
    cases hopened with
    | @bound callee s' t hb hm =>
      have ha := Machine.alters_next hc (fun _ hs => by cases hs) hnext
      refine ⟨_, h.shift_opening hx hc ha (r := .serves k [.atNode (J.call k)] none) rfl rfl hm
        (.serves hshare hbelow rfl ?_) (.calls hx) (left_serving hshare hpoint rfl)⟩
      rw [hpoint, entry_of_ok hb]
      exact .within rfl rfl (by rintro o ⟨⟩)
    | @refused e s' t hb hm =>
      obtain ⟨hstop, hentry⟩ := entry_of_error hJ hk hb
      dsimp only at hnext
      rw [hstop] at hnext
      have ha := Machine.alters_next hc (fun _ hs => by cases hs) hnext
      refine ⟨_, h.shift_opening hx hc ha (r := .serves k [.atNode (J.call k)] none) rfl rfl hm
        (.serves hshare hbelow rfl ?_) (.calls hx) (left_serving hshare hpoint rfl)⟩
      rw [hpoint, hentry]
      exact .finished rfl (Chain.parting_exit _)

/-- At its node, a job is bound, for a task to do it. -/
lemma step_spawn (hx : P.roles x = .opens k (J.spawn k)) (hc : m.chain? x = some c) :
    ∃ Q, J.Shift k P m x c Q (m.step (.run x)) := by
  have hplays := h.plays x c hc
  rw [hx] at hplays
  cases hplays with
  | opens hk _ hnone =>
    obtain ⟨n, -, hn, -, hkind, -⟩ := (hJ.pair k hk).nodes
    have hview := h.view_operands hJ hs hk hnone
    have hsame := ((hJ.pair k hk).bindingOf_eq (hJ.callable k hk) hview).trans
      (hJ.bound k hk m.store hview)
    have hopened := h.opened hJ hp hs hk hnone hsame
    have hnext := Chain.next_atNode "go" .spawn hn (by rw [hkind]; rfl) m.store
    generalize J.start.program.bindCall globalFrame (J.spawn k) "go" m.store = result
      at hopened hnext
    have hshare := P.share_advance k (J.first k m.store) (J.entry k).1
    have hpoint := P.point_advance k (J.first k m.store) (J.entry k).1
    rw [← h.program] at hnext
    cases hopened with
    | @bound callee s' t hb hm =>
      have ha := Machine.alters_next hc (fun _ hs => by cases hs) hnext
      refine ⟨_, h.shift_opening hx hc ha (r := .holds k none) rfl rfl hm
        (.bound hshare ?_ (hJ.pair k hk).lastSpawn rfl rfl) (.binds hx ⟨callee, s', hb⟩)
        fun n _ => ⟨8, by omega, .bound _⟩⟩
      rw [hpoint, entry_of_ok hb]
    | @refused e s' t hb hm =>
      obtain ⟨hstop, hentry⟩ := entry_of_error hJ hk hb
      dsimp only at hnext
      rw [hstop] at hnext
      have ha := Machine.alters_next hc (fun _ hs => by cases hs) hnext
      refine ⟨_, h.shift_opening hx hc ha (r := .serves k [] none) rfl rfl hm
        (.serves hshare (.inl rfl) rfl ?_) (.refuses hx ⟨s', hb⟩)
        (left_serving hshare hpoint rfl)⟩
      rw [hpoint, hentry]
      exact .finished rfl (Chain.parting_exit _)

end Crew

end Jobs

end Flowgraph
