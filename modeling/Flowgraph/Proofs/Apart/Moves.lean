import Flowgraph.Proofs.Apart.Crew

/-!
# Moves of chains that do jobs

Whichever chain makes a move, the jobs that have begun stay where they are, but for one, which goes
one step on. In the common store this step does what it does by itself.
-/

namespace Flowgraph

open Named Store

/-- At a node that binds a call, a chain goes on with what is bound. -/
lemma Chain.next_atNode {p : Program} {id : NodeId} {n : Node} (op : String) (k : Callee → Pending)
    (hn : p.node id = .ok n)
    (hop : p.operation globalFrame id n.kind = do return k (← p.bindCall globalFrame id op))
    (s : Store) : (atNode id).next p s = match p.bindCall globalFrame id op s with
      | .ok callee s' => some ({ atNode id with stage := stageAfter 0 (k callee) }, s')
      | .error e s' => some (Machine.stopChain (atNode id) e, s') := by
  have ha : (atNode id).advance p = some ((atNode id).walk p) := rfl
  have hperform : p.perform globalFrame id s =
      (do return k (← p.bindCall globalFrame id op) : Op Pending) s := by
    rw [Program.perform, Op.except_bind_apply, hn]
    dsimp only
    rw [hop]
  rw [next_of_advance ha]
  simp only [walk, atNode, Op.bind_apply, hperform]
  cases p.bindCall globalFrame id op s <;> rfl

namespace Jobs

variable {J : Jobs} {k i : Nat} {P Q : Plan} {m m' : Machine} {x : ChainId} {c d : Chain}
  {o : Outcome} {base : List Walk} {task : Option TaskId} {t : TaskId} {r : Role}

/-- What comes of binding a call in the store that all jobs begin with. -/
def bindCall (J : Jobs) (i : Nat) : EStateM.Result Stop Store Callee :=
  J.start.program.bindCall globalFrame (J.call i) "call" J.start.store

/-- The call of a job can be bound. -/
def Bound (J : Jobs) (i : Nat) : Prop := ∃ callee s, J.bindCall i = .ok callee s

/-- The call of a job cannot be bound, which stops it. -/
def Refused (J : Jobs) (i : Nat) (e : Stop) : Prop := ∃ s, J.bindCall i = .error e s

/-- How roles and the count of tasks change in a move. -/
inductive Turnover (J : Jobs) (n : Nat) (roles : ChainId → Role) : (ChainId → Role) → Nat → Prop
  | stays : Turnover J n roles roles n
  | calls {x : ChainId} {i : Nat} (hx : roles x = .opens i (J.call i)) :
    Turnover J n roles (Function.update roles x (.serves i [.atNode (J.call i)] none)) n
  | refuses {x : ChainId} {i : Nat} {e : Stop} (hx : roles x = .opens i (J.spawn i))
    (he : J.Refused i e) : Turnover J n roles (Function.update roles x (.serves i [] none)) n
  | binds {x : ChainId} {i : Nat} (hx : roles x = .opens i (J.spawn i)) (hb : J.Bound i) :
    Turnover J n roles (Function.update roles x (.holds i none)) n
  | reserves {x : ChainId} {i : Nat} (hx : roles x = .holds i none) :
    Turnover J n roles (Function.update roles x (.holds i (some ⟨n⟩))) (n + 1)
  | launches {x y : ChainId} {i : Nat} {t : TaskId} (hx : roles x = .holds i (some t))
    (hy : roles y = .rests (.ok [])) : Turnover J n roles
      (Function.update (Function.update roles x (.rests (.ok []))) y (.serves i [] (some t))) n

/-- What the move of a chain comes to. -/
structure Shift (J : Jobs) (k : Nat) (P : Plan) (m : Machine) (x : ChainId) (c : Chain) (Q : Plan)
    (m' : Machine) : Prop where
  crew : J.Crew k Q m'
  turnover : J.Turnover m.launcher.started P.roles Q.roles m'.launcher.started
  others : ∀ y d, y ≠ x → m.chain? y = some d → m'.chain? y = some d ∧ Q.roles y = P.roles y
  created : ∀ y d, m.chain? y = none → m'.chain? y = some d →
    ∃ z i t, P.roles z = .holds i (some t) ∧ Q.roles y = .serves i [] (some t)
  jobs : ∀ i, (P.roles x).job? ≠ some i → P.SameFor Q i
  left : ∀ n, J.Left P (P.roles x) c n → ∃ d n', m'.chain? x = some d ∧ J.Left Q (Q.roles x) d n' ∧
    (n' < n ∨ n' = n ∧ d = c ∧ m.Waits c)

/-- A move that changes no roles. -/
lemma Shift.of_alters {s : Store} (hcrew : J.Crew k Q m') (ha : m.Alters x d s m')
    (hc : m.chain? x = some c) (hroles : Q.roles = P.roles)
    (hjobs : ∀ i, (P.roles x).job? ≠ some i → P.SameFor Q i)
    (hleft : ∀ n, J.Left P (P.roles x) c n → ∃ n', J.Left Q (P.roles x) d n' ∧
      (n' < n ∨ n' = n ∧ d = c ∧ m.Waits c)) : J.Shift k P m x c Q m' where
  crew := hcrew
  turnover := by
    rw [hroles, ha.started]
    exact .stays
  others y e hy he := ⟨(ha.others y hy).trans he, congrFun hroles y⟩
  created _ _ hy he := (ha.not_created hc hy he).elim
  jobs := hjobs
  left n hn := by
    obtain ⟨n', hn', hnearer⟩ := hleft n hn
    exact ⟨d, n', ha.self, hroles ▸ hn', hnearer⟩

namespace Crew

variable (hJ : J.Independent) (hp : J.start.program.Loaded) (hn : J.start.program.natives.Blind)
  (hs : J.start.store.Closed) (h : J.Crew k P m)

/-! ### Chains that touch no store -/

include h

lemma step_rests (hx : P.roles x = .rests o) (hc : m.chain? x = some c) :
    J.Shift k P m x c P (m.step (.run x)) := by
  obtain ⟨d, ha, hd, hnearer⟩ : ∃ d, m.Alters x d m.store (m.step (.run x)) ∧
      J.Plays P (.rests o) d ∧ (d.stage.tail < c.stage.tail ∨ d = c ∧ m.Waits c) := by
    have hplays := h.plays x c hc
    rw [hx] at hplays
    cases hplays with
    | rests hpart =>
      rw [← h.program] at hpart
      obtain ⟨d, ha, hd, -, hnearer⟩ := Machine.alters_parting hc hpart
      exact ⟨d, ha, .rests (h.program ▸ hd), hnearer⟩
    | enlists hlast hw hs =>
      rw [← h.program] at hlast
      obtain ⟨d, ha, hd, hlt⟩ := Machine.alters_enlist hc hlast hw hs
      exact ⟨d, ha, .rests (h.program ▸ hd), .inl hlt⟩
  have hcrew := h.stay ha (r := .rests o) (fun i hi => by cases hi) rfl hd
  rw [← hx, P.assign_same] at hcrew
  refine .of_alters hcrew ha hc rfl (fun _ _ => ⟨rfl, rfl⟩) fun n hleft => ?_
  rw [hx] at hleft ⊢
  cases hleft
  refine ⟨d.stage.tail, .rests d, ?_⟩
  rcases hnearer with hlt | ⟨rfl, hwaits⟩
  · exact .inl hlt
  · exact .inr ⟨rfl, rfl, hwaits⟩

lemma step_joins (hx : P.roles x = .joins) (hc : m.chain? x = some c) :
    J.Shift k P m x c P (m.step (.run x)) := by
  have hplays := h.plays x c hc
  obtain ⟨d, ha, hd⟩ : ∃ d, m.Alters x d m.store (m.step (.run x)) ∧ J.Plays P .joins d := by
    rw [hx] at hplays
    cases hplays with
    | joins hj =>
      rcases hj with ⟨hw, chains, hs⟩ | hpart
      · obtain ⟨d, ha, hd⟩ := Machine.alters_join hc hw hs
        exact ⟨d, ha, .joins (h.program ▸ hd)⟩
      · rw [← h.program] at hpart
        obtain ⟨d, ha, hd, -⟩ := Machine.alters_parting hc hpart
        exact ⟨d, ha, .joins (.inr (h.program ▸ hd))⟩
  have hcrew := h.stay ha (r := .joins) (fun i hi => by cases hi) rfl hd
  rw [← hx, P.assign_same] at hcrew
  refine .of_alters hcrew ha hc rfl (fun _ _ => ⟨rfl, rfl⟩) fun n hleft => ?_
  rw [hx] at hleft
  cases hleft

/-! ### A chain that launches a task -/

/-- A number is reserved for the task. -/
lemma step_bound (hx : P.roles x = .holds i none) (hc : m.chain? x = some c) :
    J.Shift k P m x c (P.assign x (.holds i (some ⟨m.launcher.started⟩))) (m.step (.run x)) := by
  have hplays := h.plays x c hc
  rw [hx] at hplays
  cases hplays with
  | @bound _ g callee _ _ hi hpoint hlast hw hs =>
    have hstep : m.step (.run x) = m.reserve x c (rename g.names callee) := by
      simp only [Machine.step, Machine.run, hc, hs]
    rw [hstep]
    let m₁ : Machine := { m with
      launcher := { m.launcher with started := m.launcher.started + 1 } }
    have hcrew : J.Crew k P m₁ := h.congr rfl rfl fun _ => rfl
    have ha := Machine.alters_setChain (m := m₁) hc m₁ rfl rfl rfl
      { c with stage := .launch ⟨m.launcher.started⟩ (rename g.names callee) }
    refine ⟨hcrew.stay ha (fun j hj => ?_) rfl (.numbered hi hpoint hlast hw rfl), .reserves hx,
      fun y e hy he => ⟨(ha.others y hy).trans he, Plan.assign_of_ne hy _⟩,
      fun _ _ hy he => (ha.not_created hc hy he).elim,
      fun _ _ => ⟨rfl, rfl⟩, fun n hleft => ⟨_, 7, ha.self, ?_, .inl ?_⟩⟩
    · rw [hx]
      exact hj
    · rw [P.assign_self]
      exact .numbered _
    · rw [hx] at hleft
      cases hleft
      decide

/-- A task is started that does the job, and whoever has launched it is about to rest. -/
lemma launched {g : Share} {callee : Callee} {node : NodeId} (hx : P.roles x = .holds i (some t))
    (hc : m.chain? x = some c) (hi : P.shares i = some g)
    (hpoint : P.points i = { stage := .start 1 callee }) (hlast : J.start.program.Last node)
    (hw : c.walks = [.atNode node]) :
    J.Crew k ((P.assign x (.rests (.ok []))).assign m.nextChain (.serves i [] (some t)))
      (m.grant x c t (rename g.names callee)) := by
  have hcrew : J.Crew k P m.count := h.congr rfl rfl fun _ => rfl
  have ha := Machine.alters_setChain (m := m.count) hc m.count rfl rfl rfl
    { c with stage := .enlist m.nextChain }
  have hrests := hcrew.stay (r := .rests (.ok [])) ha (fun j hj => by cases hj) rfl
    (.enlists hlast hw rfl)
  have hnext : (m.count.setChain x { c with stage := .enlist m.nextChain }).nextChain =
      m.nextChain := congrArg ChainId.mk Machine.size_setChain
  have hplays : J.Plays (P.assign x (.rests (.ok []))) (.serves i [] (some t))
      (.ofTask t (rename g.names callee)) := by
    refine .serves hi (.inl rfl) rfl ?_
    change (rename g.names (P.points i)).Shows _ _ _
    rw [hpoint]
    exact .within rfl rfl (by rintro o ⟨⟩)
  have hjob : (P.roles x).job? = some i := by rw [hx]; rfl
  have hadd := hrests.add hplays (fun y j hj hy => ?_) (fun j hj => ?_) fun j node hr => by cases hr
  · rw [hnext] at hadd
    refine hadd.congr rfl rfl fun y => ?_
    rw [Machine.chain?_grant_eq hc, Machine.chain?_addChain_eq, Machine.size_setChain]
    refine if_congr Machine.eq_nextChain_iff rfl ?_
    by_cases hyx : y = x
    · rw [if_pos hyx, hyx, ha.self]
    · rw [if_neg hyx]
      exact (ha.others y hyx).symm
  · cases hj
    by_cases hyx : y = x
    · rw [hyx, P.assign_self] at hy
      cases hy
    · rw [Plan.assign_of_ne hyx] at hy
      exact hyx (h.unique y x i hy hjob)
  · cases hj
    exact h.upto x i hjob

/-- The task is started, as its thread is not refused. The chain has nothing more to do with the
job. -/
lemma step_numbered (hgrants : J.start.program.config.Grants) (hx : P.roles x = .holds i (some t))
    (hc : m.chain? x = some c) :
    J.Shift k P m x c ((P.assign x (.rests (.ok []))).assign m.nextChain (.serves i [] (some t)))
      (m.step (.run x)) := by
  have hplays := h.plays x c hc
  rw [hx] at hplays
  cases hplays with
  | @numbered _ g callee node _ _ hi hpoint hlast hw hs =>
    have hstep : m.step (.run x) = m.grant x c t (rename g.names callee) :=
      Machine.step_grant hc hs (h.program ▸ hgrants t.index)
    have hchain := Machine.chain?_grant_eq hc t (rename g.names callee)
    have hne : ∀ {y e}, m.chain? y = some e → y ≠ m.nextChain := by
      rintro y e hy rfl
      exact Nat.lt_irrefl _ (Array.getElem?_eq_some_iff.mp hy).1
    rw [hstep]
    constructor
    case crew => exact h.launched hx hc hi hpoint hlast hw
    case turnover => exact .launches hx (h.spare _ (Array.getElem?_eq_none (Nat.le_refl _)))
    case others =>
      intro y e hy he
      rw [hchain, if_neg (hne he), if_neg hy, Plan.assign_of_ne (hne he), Plan.assign_of_ne hy]
      exact ⟨he, rfl⟩
    case created =>
      intro y e hy he
      rw [hchain] at he
      split_ifs at he with hnew hyx
      · exact ⟨x, i, t, hx, by rw [hnew, Plan.assign_self]⟩
      · rw [hyx, hc] at hy
        cases hy
      · rw [hy] at he
        cases he
    case jobs => exact fun _ _ => ⟨rfl, rfl⟩
    case left =>
      intro n hleft
      rw [hx] at hleft
      cases hleft
      refine ⟨{ c with stage := .enlist m.nextChain }, 6, ?_, ?_, .inl (by decide)⟩
      · rw [hchain, if_neg (hne hc), if_pos rfl]
      · rw [Plan.assign_of_ne (hne hc), P.assign_self]
        exact .rests _

/-! ### A chain that does a job -/

include hJ hp hn hs

/-- Where a job has come to, it is as sound as in the beginning, and it keeps to its footprint. -/
lemma sound {g : Share} (hi : P.shares i = some g) :
    g.store.Closed ∧ Flowgraph.Within g.store.size (P.points i) ∧
      (P.points i).Regular J.start.program ∧ (P.points i).stage.isSolo = true ∧
      (P.points i).Confined J.start.program ((J.footprint i).touched J.start.store)
        ((J.footprint i).written J.start.store) g.store := by
  obtain ⟨hlt, -, hcomes⟩ := h.known i g hi
  obtain ⟨-, hclosed, hwithin, hregular⟩ := Program.sound_entry hp hs (J.call i)
  obtain ⟨-, hclosed', hwithin', hregular'⟩ := hcomes.sound hp hn hclosed hwithin hregular
  have hcontained := hJ.contained i hlt
  exact ⟨hclosed', hwithin', hregular', hcontained.solo _ _ hcomes, hcontained.confined _ _ hcomes⟩

/-- A step that a job makes in the common store is its own step. -/
lemma proceeds {g : Share} (hi : P.shares i = some g) {e : Chain} {t : Store}
    (hnext : (rename g.names (P.points i)).next m.program m.store = some (e, t)) :
    ∃ e₀ s₀, (P.points i).next J.start.program g.store = some (e₀, s₀) ∧
      e = rename (extended g.names g.store m.store) e₀ ∧ Merged J.start.store J.footprint
        (Function.update P.shares i (some (Merged.advanced g m.store s₀))) t := by
  obtain ⟨hclosed, hwithin, -, hsolo, hconfined⟩ := h.sound hJ hp hn hs hi
  have hexit : ∀ o, (P.points i).stage ≠ .exit o := by
    intro o ho
    obtain ⟨o', ho'⟩ := (Chain.exit_rename_iff (π := g.names)).mpr ⟨o, ho⟩
    rw [Chain.next_of_exit ho'] at hnext
    cases hnext
  obtain ⟨e₀, s₀, hnext₀⟩ := Chain.exists_next (p := J.start.program) hsolo hexit g.store
  have hview := (h.merged.view i g hi).congr hclosed fun T j hj =>
    extended_of_lt (ρ := g.names) (t := m.store) hj
  obtain ⟨t', hnext', heffect⟩ := hconfined.transfer hp hn hclosed hwithin hnext₀
    (fresh_extended _ _ _) hview
  have hsame : rename (extended g.names g.store m.store) (P.points i) =
      rename g.names (P.points i) := hwithin.rename_eq fun T j hj => extended_of_lt hj
  rw [hsame, ← h.program] at hnext'
  cases hnext.symm.trans hnext'
  have hspares : ∀ j g', j ≠ i → P.shares j = some g' →
      (J.footprint i).Spares (J.footprint j) := fun j g' hj hg' =>
    hJ.apart i (h.known i g hi).1 j (h.known j g' hg').1 hj.symm
  exact ⟨e₀, s₀, hnext₀, rfl, h.merged.step hi hspares
    (Chain.closed_next hp hn hnext₀ hclosed hwithin).2.1 heffect⟩

/-- The job comes one step on, or does not notice the move. -/
lemma step_serves (hx : P.roles x = .serves i base task) (hc : m.chain? x = some c) :
    ∃ Q, J.Shift k P m x c Q (m.step (.run x)) := by
  have hplays := h.plays x c hc
  rw [hx] at hplays
  cases hplays with
  | @serves _ g _ _ _ hi hbelow htask hshows =>
    obtain ⟨hclosed, hwithin, hregular, hsolo, hconfined⟩ := h.sound hJ hp hn hs hi
    obtain ⟨hlt, hk, hcomes⟩ := h.known i g hi
    rw [← h.program] at hbelow hshows hregular
    have hjob : (P.roles x).job? = some i := by rw [hx]; rfl
    obtain ⟨d, hd, hsame | ⟨e', s', hnext, ha, hshows'⟩⟩ := Machine.alters_shown hc hbelow
      (hregular.rename g.names) ((Chain.isSolo_rename _).trans hsolo) hshows
    · obtain ⟨ha, hshows', hnearer⟩ := hsame
      have hcrew := h.stay (r := .serves i base task) ha (fun j hj => hx ▸ hj) rfl
        (.serves hi (h.program ▸ hbelow) (hd.trans htask) (h.program ▸ hshows'))
      rw [← hx, P.assign_same] at hcrew
      refine ⟨P, .of_alters hcrew ha hc rfl (fun _ _ => ⟨rfl, rfl⟩) fun n hleft => ?_⟩
      rw [hx] at hleft ⊢
      cases hleft with
      | @serves _ n _ _ _ _ hi' hl =>
        cases hi.symm.trans hi'
        refine ⟨d.due n, .serves d hi hl, ?_⟩
        rcases hnearer with hlt | ⟨rfl, hwaits⟩
        · exact .inl (hlt n (hl.eq_zero_iff.trans Chain.exit_rename_iff.symm))
        · exact .inr ⟨rfl, rfl, hwaits⟩
    · obtain ⟨e₀, s₀, hnext₀, rfl, hmerged⟩ := h.proceeds hJ hp hn hs hi hnext
      have hplays' : J.Plays (P.advance i (Merged.advanced g m.store s₀) e₀)
          (.serves i base task) d := by
        refine .serves (P.share_advance ..) (h.program ▸ hbelow) (hd.trans htask) ?_
        rw [P.point_advance]
        exact h.program ▸ hshows'
      have hcrew := h.move ha hjob (r := .serves i base task) rfl rfl hlt hk
        (.next hcomes hnext₀) hmerged hplays'
      have hroles : ((P.advance i (Merged.advanced g m.store s₀) e₀).assign x
          (.serves i base task)).roles = P.roles := by
        have hsame := congrArg Plan.roles (P.assign_same x)
        rwa [hx] at hsame
      refine ⟨_, .of_alters hcrew ha hc hroles (fun j hj => P.sameFor_advance ?_ _ _)
        fun n hleft => ?_⟩
      · rintro rfl
        exact hj hjob
      · rw [hx] at hleft ⊢
        cases hleft with
        | @serves _ n _ _ _ _ hi' hl =>
          cases hi.symm.trans hi'
          obtain ⟨n, rfl, hl'⟩ := hl.after hnext₀
          refine ⟨d.due n, ?_, .inl (Chain.due_lt_due c d n)⟩
          refine .serves d (P.share_advance i (Merged.advanced g m.store s₀) e₀) ?_
          change Chain.Lasts _ ((P.advance i (Merged.advanced g m.store s₀) e₀).points i) _ _
          rwa [P.point_advance]

end Crew

end Jobs

end Flowgraph
