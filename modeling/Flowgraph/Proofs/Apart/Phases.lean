import Flowgraph.Proofs.Apart.Rounds

/-!
# Steps of the host

The host begins a chain at the node of a job, or one that waits for all tasks, and goes on when this
chain has ended. Meanwhile tasks do what they have to do.
-/

namespace Flowgraph

open Named Store

/-- Whether a chain is about to begin a job. -/
def Role.isBeginning : Role → Bool
  | .opens _ _ | .holds _ _ => true
  | _ => false

/-- A plan leaves to chains the jobs that they do in another one. -/
def Plan.Upholds (P Q : Plan) : Prop :=
  ∀ y i base task, P.roles y = .serves i base task → Q.roles y = .serves i base task

lemma Plan.Upholds.trans {P Q R : Plan} (h : P.Upholds Q) (h' : Q.Upholds R) : P.Upholds R :=
  fun y i base task hy => h' y i base task (h y i base task hy)

/-- A chain has ended, if there is one, or it is that of a task. -/
def Plan.Attends (P : Plan) (m : Machine) (y : ChainId) : Prop :=
  ∀ c, m.chain? y = some c → c.hasEnded = true ∨ ∃ i t, P.roles y = .serves i [] (some t)

lemma Plan.Attends.addChain {P : Plan} {m : Machine} {y : ChainId} {r : Role} {d : Chain}
    (h : P.Attends m y) (hy : y ≠ m.nextChain) :
      (P.assign m.nextChain r).Attends (m.addChain d).2 y := by
  intro c hc
  rw [Machine.chain?_addChain_eq, if_neg (mt Machine.eq_nextChain_iff.mpr hy)] at hc
  rw [Plan.assign_of_ne hy]
  exact h c hc

/-- A chain with an outcome has ended with it. -/
lemma Machine.ended_of_outcome {m : Machine} {x : ChainId} {o : Outcome}
    (ho : (m.chain? x).bind Chain.outcome? = some o) :
    ∃ c, m.chain? x = some c ∧ c.stage = .ended o ∧ c.hasEnded = true := by
  obtain ⟨c, hc, ho⟩ := Option.bind_eq_some_iff.mp ho
  have hended : c.hasEnded = true := by rw [Chain.hasEnded, ho]; rfl
  obtain ⟨o', hs⟩ := stage_of_hasEnded hended
  rw [Chain.outcome?, hs] at ho
  cases ho
  exact ⟨c, hc, hs, hended⟩

/-- The fault that is recorded for a task with an outcome. -/
def Outcome.recorded : Outcome → List Fault
  | .ok _ => []
  | .error e => e.recorded?.toList

namespace Jobs

variable {J : Jobs} {i k N n n' : Nat} {P Q : Plan} {m m' : Machine} {x y : ChainId} {c : Chain}
  {o o' : Outcome} {base : List Walk} {task : Option TaskId} {node : NodeId} {mv : Move}
  {roles roles' : ChainId → Role}

/-! ### Outcomes of jobs -/

/-- The outcome of a job by itself. -/
def Result (J : Jobs) (i : Nat) (o : Outcome) : Prop :=
  ∃ e u, (J.entry i).1.Comes J.start.program (J.entry i).2 e u ∧ e.stage = .exit o

lemma Result.unique (h : J.Result i o) (h' : J.Result i o') : o' = o := by
  obtain ⟨e, u, he, hexit⟩ := h
  obtain ⟨e', u', he', hexit'⟩ := h'
  obtain ⟨rfl, rfl⟩ := he.unique hexit he' hexit'
  rw [hexit] at hexit'
  cases hexit'
  rfl

lemma past_rename {π : Renaming} (h : base ≠ []) : (rename π o).past base = o.past base := by
  cases o with
  | error e => rfl
  | ok vs =>
    have hbase : base.isEmpty = false := by simpa using h
    simp only [Outcome.past, hbase]
    rfl

lemma recorded_past (o : Outcome) (base : List Walk) : (o.past base).recorded = o.recorded := by
  cases o with
  | error e => rfl
  | ok vs =>
    simp only [Outcome.past]
    split_ifs <;> rfl

lemma recorded_rename (π : Renaming) (o : Outcome) : (rename π o).recorded = o.recorded := by
  cases o <;> rfl

namespace Crew

variable (hJ : J.Independent) (hp : J.start.program.Loaded) (hn : J.start.program.natives.Blind)
  (hs : J.start.store.Closed) (h : J.Crew k P m)

include h

/-- A chain that has ended or is that of a task is not about to begin a job. -/
lemma isBeginning_of_attends (ha : P.Attends m y) : (P.roles y).isBeginning = false := by
  cases hc : m.chain? y with
  | none => rw [h.spare y hc]; rfl
  | some c =>
    rcases ha c hc with hended | ⟨i, t, hy⟩
    · obtain ⟨o, hs⟩ := Machine.stage_of_hasEnded hended
      have hplays := h.plays y c hc
      cases hr : P.roles y with
      | rests | joins | serves => rfl
      | opens i node =>
        rw [hr] at hplays
        cases hplays
        cases hs
      | holds i number =>
        rw [hr] at hplays
        cases hplays with
        | bound _ _ _ _ hs' | numbered _ _ _ _ hs' => rw [hs] at hs'; cases hs'
    · rw [hy]
      rfl

include hJ hp hn hs

/-- When a chain that does a job has ended, the job has come to its end. -/
lemma result_of_ended (hc : m.chain? y = some c) (hy : P.roles y = .serves i base task)
    (hended : c.stage = .ended o) : c.task = task ∧ ∃ g o', P.shares i = some g ∧
      (P.points i).stage = .exit o' ∧ J.Result i o' ∧ o = (rename g.names o').past base := by
  have hplays := h.plays y c hc
  rw [hy] at hplays
  cases hplays with
  | @serves _ g _ _ _ hi _ htask hshows =>
    refine ⟨htask, g, ?_⟩
    cases hshows with
    | within _ hs' _ =>
      have hsolo : (rename g.names (P.points i).stage).isSolo = true :=
        (Chain.isSolo_rename _).trans (h.sound hJ hp hn hs hi).2.2.2.1
      have hs' : c.stage = rename g.names (P.points i).stage := hs'
      rw [← hs', hended] at hsolo
      cases hsolo
    | asleep _ _ hs' =>
      rw [hended] at hs'
      cases hs'
    | @finished o' he hpart =>
      obtain ⟨o', hexit⟩ := Chain.exit_rename_iff.mp ⟨_, he⟩
      have he : rename g.names (P.points i).stage = .exit _ := he
      rw [hexit] at he
      cases he
      exact ⟨o', hi, hexit, ⟨_, _, (h.known i g hi).2.2, hexit⟩, hpart.of_ended hended⟩

end Crew

/-! ### What a host waits for -/

/-- A chain of the host is at work. All others have ended or are those of tasks. -/
structure Host (J : Jobs) (k : Nat) (P : Plan) (m : Machine) (x : ChainId) : Prop where
  crew : J.Crew k P m
  others : ∀ y, y ≠ x → P.Attends m y

lemma Turnover.same (h : J.Turnover n roles roles' n') (hy : (roles y).isBeginning = false)
    (hrests : roles y ≠ .rests (.ok [])) : roles' y = roles y := by
  have hne : ∀ {x}, (roles x).isBeginning = true → y ≠ x := by
    rintro x hx rfl
    rw [hy] at hx
    cases hx
  cases h with
  | stays => rfl
  | calls hx | refuses hx | binds hx | reserves hx =>
    exact Function.update_of_ne (hne (by rw [hx]; rfl)) ..
  | @launches x z i t hx hz =>
    have hyz : y ≠ z := by
      rintro rfl
      exact hrests hz
    rw [Function.update_of_ne hyz, Function.update_of_ne (hne (by rw [hx]; rfl))]

lemma Turnover.upholds (h : J.Turnover n P.roles Q.roles n') : P.Upholds Q :=
  fun y i base task hy => (h.same (by rw [hy]; rfl) (by rw [hy]; rintro ⟨⟩)).trans hy

namespace Host

variable (hJ : J.Independent) (hp : J.start.program.Loaded) (hn : J.start.program.natives.Blind)
  (hs : J.start.store.Closed) (hgrants : J.start.program.config.Grants)

include hJ hp hn hs hgrants

/-- The host waits on in every move. -/
lemma step (h : J.Host k P m x) (mv : Move) :
    ∃ Q, J.Change k P m mv Q (m.step mv) ∧ J.Host k Q (m.step mv) x := by
  obtain ⟨Q, hQ⟩ := h.crew.step hJ hp hn hs hgrants mv
  refine ⟨Q, hQ, hQ.crew, fun y hy d hd => ?_⟩
  cases hc : m.chain? y with
  | none =>
    obtain ⟨z, i, t, -, hserves⟩ := hQ.created y d hc hd
    exact .inr ⟨i, t, hserves⟩
  | some c =>
    rcases h.others y hy c hc with hended | ⟨i, t, hserves⟩
    · rw [Machine.chain?_of_hasEnded hc hended] at hd
      cases hd
      exact .inl hended
    · exact .inr ⟨i, t, hQ.turnover.upholds y i [] (some t) hserves⟩

/-- What is kept in each move is kept. -/
theorem run {I : Plan → Machine → Prop} (hstep : ∀ P m mv Q, J.Host k P m x → I P m →
      J.Change k P m mv Q (m.step mv) → J.Host k Q (m.step mv) x → I Q (m.step mv))
    (hr : m.Reaches m') (h : J.Host k P m x) (hI : I P m) :
    ∃ Q, J.Host k Q m' x ∧ I Q m' ∧ P.Upholds Q := by
  induction hr generalizing P with
  | refl => exact ⟨P, h, hI, fun _ _ _ _ hy => hy⟩
  | step m mv _ ih =>
    obtain ⟨Q, hQ, hhost⟩ := h.step hJ hp hn hs hgrants mv
    obtain ⟨R, hR, hIR, hupholds⟩ := ih hhost (hstep P m mv Q h hI hQ hhost)
    exact ⟨R, hR, hIR, hQ.turnover.upholds.trans hupholds⟩

end Host

/-! ### Beginning a job -/

/-- How far a chain of the host has come that begins a job, when so many numbers had been given out
before. -/
inductive Beginning (J : Jobs) (k : Nat) (x : ChainId) (N : Nat) (roles : ChainId → Role) :
    NodeId → Nat → Prop
  | opens {node : NodeId} (hx : roles x = .opens k node) : Beginning J k x N roles node N
  | called (hx : roles x = .serves k [.atNode (J.call k)] none) :
    Beginning J k x N roles (J.call k) N
  | refused {e : Stop} (he : J.Refused k e) (hx : roles x = .serves k [] none) :
    Beginning J k x N roles (J.spawn k) N
  | bound (hb : J.Bound k) (hx : roles x = .holds k none) : Beginning J k x N roles (J.spawn k) N
  | numbered (hb : J.Bound k) (hx : roles x = .holds k (some ⟨N⟩)) :
    Beginning J k x N roles (J.spawn k) (N + 1)
  | launched {y : ChainId} (hb : J.Bound k) (hx : roles x = .rests (.ok []))
    (hy : roles y = .serves k [] (some ⟨N⟩)) : Beginning J k x N roles (J.spawn k) (N + 1)

lemma Beginning.step (h : J.Beginning k x N roles node n) (ht : J.Turnover n roles roles' n')
    (hothers : ∀ y, y ≠ x → (roles y).isBeginning = false) :
    J.Beginning k x N roles' node n' := by
  have honly : ∀ {y}, (roles y).isBeginning = true → y = x := fun hy => by
    by_contra hne
    rw [hothers _ hne] at hy
    cases hy
  cases ht with
  | stays => exact h
  | @calls y i hy =>
    cases honly (by rw [hy]; rfl)
    cases h with
    | opens hx =>
      rw [hx] at hy
      cases hy
      exact .called (Function.update_self ..)
    | called hx | refused _ hx | bound _ hx | numbered _ hx | launched _ hx =>
      rw [hx] at hy
      cases hy
  | @refuses y i e hy he =>
    cases honly (by rw [hy]; rfl)
    cases h with
    | opens hx =>
      rw [hx] at hy
      cases hy
      exact .refused he (Function.update_self ..)
    | called hx | refused _ hx | bound _ hx | numbered _ hx | launched _ hx =>
      rw [hx] at hy
      cases hy
  | @binds y i hy hb =>
    cases honly (by rw [hy]; rfl)
    cases h with
    | opens hx =>
      rw [hx] at hy
      cases hy
      exact .bound hb (Function.update_self ..)
    | called hx | refused _ hx | bound _ hx | numbered _ hx | launched _ hx =>
      rw [hx] at hy
      cases hy
  | @reserves y i hy =>
    cases honly (by rw [hy]; rfl)
    cases h with
    | bound hb hx =>
      rw [hx] at hy
      cases hy
      exact .numbered hb (Function.update_self ..)
    | opens hx | called hx | refused _ hx | numbered _ hx | launched _ hx =>
      rw [hx] at hy
      cases hy
  | @launches y z i t hy hz =>
    cases honly (by rw [hy]; rfl)
    cases h with
    | numbered hb hx =>
      rw [hx] at hy
      cases hy
      have hne : x ≠ z := by
        rintro rfl
        rw [hx] at hz
        cases hz
      refine .launched hb ?_ (Function.update_self ..)
      rw [Function.update_of_ne hne, Function.update_self]
    | opens hx | called hx | refused _ hx | bound _ hx | launched _ hx =>
      rw [hx] at hy
      cases hy

/-- How a job has begun: with an outcome of the chain of the host, and perhaps with a task. -/
inductive Begun (J : Jobs) (i : Nat) (N : Nat) (roles : ChainId → Role) :
    NodeId → Nat → Outcome → Prop
  | called {y : ChainId} {o : Outcome} (hy : roles y = .serves i [.atNode (J.call i)] none)
    (ho : J.Result i o) : Begun J i N roles (J.call i) N (o.past [.atNode (J.call i)])
  | refused {y : ChainId} {e : Stop} (he : J.Refused i e) (hy : roles y = .serves i [] none) :
    Begun J i N roles (J.spawn i) N (.error e)
  | launched {y : ChainId} (hb : J.Bound i) (hy : roles y = .serves i [] (some ⟨N⟩)) :
    Begun J i N roles (J.spawn i) (N + 1) (.ok [])

lemma Begun.upheld (h : J.Begun i N P.roles node n o) (hQ : P.Upholds Q) :
    J.Begun i N Q.roles node n o := by
  cases h with
  | called hy ho => exact .called (hQ _ _ _ _ hy) ho
  | refused he hy => exact .refused he (hQ _ _ _ _ hy)
  | launched hb hy => exact .launched hb (hQ _ _ _ _ hy)

/-- Between steps of the host: the first jobs have begun, and only tasks have not ended. -/
structure Stands (J : Jobs) (k : Nat) (P : Plan) (m : Machine) : Prop where
  crew : J.Crew k P m
  begun : ∀ i g, P.shares i = some g → i < k
  attends : ∀ y, P.Attends m y

/-- Another job may begin. -/
lemma Crew.next (h : J.Crew k P m) (hb : ∀ y, (P.roles y).isBeginning = false) :
    J.Crew (k + 1) P m where
  program := h.program
  merged := h.merged
  known i g hi := by
    obtain ⟨hlt, hk, hcomes⟩ := h.known i g hi
    exact ⟨hlt, Nat.le_succ_of_le hk, hcomes⟩
  plays := h.plays
  unique := h.unique
  upto x i hx := Nat.le_succ_of_le (h.upto x i hx)
  latest x i node hx := by
    have hx' := hb x
    rw [hx] at hx'
    cases hx'
  spare := h.spare

/-- When the chain of the host has ended, only tasks have not. -/
lemma Host.stands (h : J.Host k P m x) (hc : m.chain? x = some c) (hended : c.hasEnded = true) :
    J.Stands (k + 1) P m := by
  have hattends : ∀ y, P.Attends m y := by
    intro y d hd
    by_cases hy : y = x
    · subst hy
      rw [hc] at hd
      cases hd
      exact .inl hended
    · exact h.others y hy d hd
  exact ⟨h.crew.next fun y => h.crew.isBeginning_of_attends (hattends y),
    fun i g hi => Nat.lt_succ_of_le (h.crew.known i g hi).2.1, hattends⟩

namespace Stands

variable (h : J.Stands k P m)

include h

lemma shares_eq_none : P.shares k = none := by
  cases hk : P.shares k with
  | none => rfl
  | some g => exact absurd (h.begun k g hk) (Nat.lt_irrefl k)

/-- Nobody does a job that has not begun. -/
lemma job?_ne (y : ChainId) : (P.roles y).job? ≠ some k := by
  intro hy
  have hbegin := h.crew.isBeginning_of_attends (h.attends y)
  cases hc : m.chain? y with
  | none =>
    rw [h.crew.spare y hc] at hy
    cases hy
  | some c =>
    have hplays := h.crew.plays y c hc
    cases hr : P.roles y with
    | rests | joins =>
      rw [hr] at hy
      cases hy
    | opens | holds =>
      rw [hr] at hbegin
      cases hbegin
    | serves i base task =>
      rw [hr] at hy hplays
      cases hy
      cases hplays with
      | serves hi =>
        rw [h.shares_eq_none] at hi
        cases hi

lemma upholds_assign (r : Role) : P.Upholds (P.assign m.nextChain r) := by
  intro y i base task hy
  refine (Plan.assign_of_ne ?_ r).trans hy
  rintro rfl
  have hnone : m.chain? m.nextChain = none := Array.getElem?_eq_none (Nat.le_refl _)
  rw [h.crew.spare _ hnone] at hy
  cases hy

/-- The host begins a chain at the node of a job. -/
lemma host_atNode (hk : k < J.count) (hnode : node = J.spawn k ∨ node = J.call k) :
    J.Host k (P.assign m.nextChain (.opens k node)) (m.addChain (.atNode node)).2 m.nextChain where
  crew := by
    refine h.crew.add (.opens hk hnode h.shares_eq_none) (fun y i hi => ?_) (fun i hi => ?_) ?_
    · cases hi
      exact h.job?_ne y
    · cases hi
      exact Nat.le_refl k
    · rintro i node ⟨⟩
      rfl
  others y hy := (h.attends y).addChain hy

/-- The host begins a chain that waits for all tasks. -/
lemma host_ofJoin :
    J.Host k (P.assign m.nextChain .joins) (m.addChain .ofJoin).2 m.nextChain where
  crew := by
    refine h.crew.add (.joins (.inl ⟨rfl, [], rfl⟩)) (fun y i hi => ?_) (fun i hi => ?_) ?_
    · cases hi
    · cases hi
    · rintro i node ⟨⟩
  others y hy := (h.attends y).addChain hy

end Stands

/-- What there is before the first job. -/
def plan (J : Jobs) : Plan where
  roles x := .rests (((J.start.chain? x).bind Chain.outcome?).getD (.ok []))
  shares _ := none
  points _ := default

lemma stands_start (hidle : J.start.Idle) : J.Stands 0 J.plan J.start where
  crew :=
    { program := rfl
      merged := .init _ _
      known := fun i g hi => by cases hi
      plays := fun x c hc => by
        obtain ⟨o, hs⟩ := Machine.stage_of_hasEnded (hidle x c hc)
        have hroles : J.plan.roles x = .rests o := by
          simp only [plan, hc, Option.bind_some, Chain.outcome?, hs, Option.getD_some]
        rw [hroles]
        exact .rests (.settled (.ended hs))
      unique := fun x y i hx => by cases hx
      upto := fun x i hx => by cases hx
      latest := fun x i node hx => by cases hx
      spare := fun x hx => by simp only [plan, hx, Option.bind_none, Option.getD_none] }
  begun i g hi := by cases hi
  attends y c hc := .inl (hidle y c hc)

/-! ### Steps of the host from beginning to end -/

section Steps

variable (hJ : J.Independent) (hp : J.start.program.Loaded) (hn : J.start.program.natives.Blind)
  (hs : J.start.store.Closed) (hgrants : J.start.program.config.Grants)

include hJ hp hn hs

lemma Beginning.begun (hb : J.Beginning k x N P.roles node n) (h : J.Host k P m x)
    (hc : m.chain? x = some c) (hended : c.stage = .ended o) :
    J.Begun k N P.roles node n o := by
  have hplays := h.crew.plays x c hc
  cases hb with
  | opens hx =>
    rw [hx] at hplays
    cases hplays
    cases hended
  | called hx =>
    obtain ⟨-, g, o', -, -, ho', rfl⟩ := h.crew.result_of_ended hJ hp hn hs hc hx hended
    rw [past_rename (by simp)]
    exact .called hx ho'
  | @refused e he hx =>
    obtain ⟨-, g, o', hi, -, ho', rfl⟩ := h.crew.result_of_ended hJ hp hn hs hc hx hended
    obtain ⟨s, hrefused⟩ := he
    have hentry := (entry_of_error hJ (h.crew.known k g hi).1 hrefused).2
    have herror : J.Result k (.error e) := ⟨_, _, .start, by rw [hentry]; rfl⟩
    rw [herror.unique ho']
    exact .refused ⟨s, hrefused⟩ hx
  | bound _ hx =>
    rw [hx] at hplays
    cases hplays with
    | bound _ _ _ _ hs' =>
      rw [hended] at hs'
      cases hs'
  | numbered _ hx =>
    rw [hx] at hplays
    cases hplays with
    | numbered _ _ _ _ hs' =>
      rw [hended] at hs'
      cases hs'
  | launched hb hx hy =>
    rw [hx] at hplays
    cases hplays with
    | rests hpart =>
      rw [hpart.of_ended hended]
      exact .launched hb hy
    | enlists _ _ hs' =>
      rw [hended] at hs'
      cases hs'

include hgrants

/-- The host begins a job, and its chain comes to an end. -/
theorem Stands.run_atNode (h : J.Stands k P m) (hk : k < J.count)
    (hnode : node = J.spawn k ∨ node = J.call k) (hr : (m.addChain (.atNode node)).2.Reaches m')
    (ho : (m'.chain? m.nextChain).bind Chain.outcome? = some o) :
    ∃ Q, J.Stands (k + 1) Q m' ∧ P.Upholds Q ∧
      J.Begun k m.launcher.started Q.roles node m'.launcher.started o := by
  have hopens : J.Beginning k m.nextChain m.launcher.started
      (P.assign m.nextChain (.opens k node)).roles node
      (m.addChain (.atNode node)).2.launcher.started := .opens (P.assign_self ..)
  obtain ⟨Q, hhost, hbegun, hupholds⟩ := Host.run hJ hp hn hs hgrants (x := m.nextChain)
    (I := fun P m' => J.Beginning k m.nextChain m.launcher.started P.roles node m'.launcher.started)
    (fun P m mv Q hhost hb hQ _ => hb.step hQ.turnover fun y hy =>
      hhost.crew.isBeginning_of_attends (hhost.others y hy))
    hr (h.host_atNode hk hnode) hopens
  obtain ⟨c, hc, hended, hhas⟩ := Machine.ended_of_outcome ho
  exact ⟨Q, hhost.stands hc hhas, (h.upholds_assign _).trans hupholds,
    hbegun.begun hJ hp hn hs hhost hc hended⟩

end Steps

end Jobs

end Flowgraph
