import Flowgraph.Proofs.Apart.Jobs

/-!
# Chains that do jobs

A host begins one job after the other. A job is done by the chain that called, or by a task that was
spawned for it. Every chain has its role, and every job that has begun has its share of the common
store.
-/

namespace Flowgraph

open Named Store

/-- What a chain is there for. -/
inductive Role where
  /-- It comes to its end. -/
  | rests (o : Outcome)
  /-- It waits for all tasks. -/
  | joins
  /-- It is at the node that begins a job. -/
  | opens (i : Nat) (node : NodeId)
  /-- It has bound a job and launches a task for it, perhaps with a number already. -/
  | holds (i : Nat) (number : Option TaskId)
  /-- It does a job, above the walks that it has. -/
  | serves (i : Nat) (base : List Walk) (task : Option TaskId)

namespace Role

/-- The job that a chain is there for. -/
def job? : Role → Option Nat
  | rests _ | joins => none
  | opens i _ | holds i _ | serves i _ _ => some i

/-- Whether a chain is at the node that begins a job. -/
def isOpening : Role → Bool
  | opens _ _ => true
  | _ => false

end Role

/-- The roles of all chains, and how far the jobs have come: what they have of the common store, and
where their own chains are. -/
structure Plan where
  roles : ChainId → Role
  shares : Nat → Option Share
  points : Nat → Chain

namespace Plan

/-- A chain takes a role. -/
def assign (P : Plan) (x : ChainId) (r : Role) : Plan :=
  { P with roles := Function.update P.roles x r }

/-- A job comes to a point. -/
def advance (P : Plan) (i : Nat) (g : Share) (e : Chain) : Plan :=
  { P with shares := Function.update P.shares i (some g), points := Function.update P.points i e }

variable {P : Plan} {x y : ChainId} {i j : Nat}

lemma assign_self (P : Plan) (x : ChainId) (r : Role) : (P.assign x r).roles x = r :=
  Function.update_self ..

lemma assign_of_ne (h : y ≠ x) (r : Role) : (P.assign x r).roles y = P.roles y :=
  Function.update_of_ne h ..

lemma assign_same (P : Plan) (x : ChainId) : P.assign x (P.roles x) = P := by
  rw [assign, Function.update_eq_self]

lemma share_advance (P : Plan) (i : Nat) (g : Share) (e : Chain) :
    (P.advance i g e).shares i = some g := Function.update_self ..

lemma point_advance (P : Plan) (i : Nat) (g : Share) (e : Chain) :
    (P.advance i g e).points i = e := Function.update_self ..

/-- Two plans are the same for a job. -/
def SameFor (P Q : Plan) (i : Nat) : Prop := Q.shares i = P.shares i ∧ Q.points i = P.points i

lemma sameFor_advance (h : j ≠ i) (g : Share) (e : Chain) : P.SameFor (P.advance i g e) j :=
  ⟨Function.update_of_ne h .., Function.update_of_ne h ..⟩

end Plan

namespace Jobs

variable {J : Jobs} {k i n : Nat} {P Q : Plan} {m m' : Machine} {x y : ChainId} {c d : Chain}
  {s : Store} {r : Role} {o : Outcome}

/-! ### Roles -/

/-- A chain is where its role says. -/
inductive Plays (J : Jobs) (P : Plan) : Role → Chain → Prop
  | rests {o : Outcome} {c : Chain} (h : c.Parting J.start.program o) : Plays J P (.rests o) c
  | enlists {node : NodeId} {child : ChainId} {c : Chain} (hlast : J.start.program.Last node)
    (hw : c.walks = [.atNode node]) (hs : c.stage = .enlist child) : Plays J P (.rests (.ok [])) c
  | joins {c : Chain} (h : c.walks = [] ∧ (∃ chains, c.stage = .join chains) ∨
      c.Parting J.start.program (.ok [])) : Plays J P .joins c
  | opens {i : Nat} {node : NodeId} (hi : i < J.count) (hnode : node = J.spawn i ∨ node = J.call i)
    (hnone : P.shares i = none) : Plays J P (.opens i node) (.atNode node)
  | bound {i : Nat} {h : Share} {callee : Callee} {node : NodeId} {c : Chain}
    (hi : P.shares i = some h) (hpoint : P.points i = { stage := .start 1 callee })
    (hlast : J.start.program.Last node) (hw : c.walks = [.atNode node])
    (hs : c.stage = .spawn (rename h.names callee)) : Plays J P (.holds i none) c
  | numbered {i : Nat} {h : Share} {callee : Callee} {node : NodeId} {t : TaskId} {c : Chain}
    (hi : P.shares i = some h) (hpoint : P.points i = { stage := .start 1 callee })
    (hlast : J.start.program.Last node) (hw : c.walks = [.atNode node])
    (hs : c.stage = .launch t (rename h.names callee)) : Plays J P (.holds i (some t)) c
  | serves {i : Nat} {h : Share} {base : List Walk} {task : Option TaskId} {c : Chain}
    (hi : P.shares i = some h) (hbelow : J.start.program.Below base) (htask : c.task = task)
    (hshows : (rename h.names (P.points i)).Shows J.start.program base c) :
    Plays J P (.serves i base task) c

/-- What a role says depends on its own job only. -/
lemma Plays.congr (h : J.Plays P r c) (hsame : ∀ i, r.job? = some i → P.SameFor Q i) :
    J.Plays Q r c := by
  cases h with
  | rests h => exact .rests h
  | enlists hlast hw hs => exact .enlists hlast hw hs
  | joins h => exact .joins h
  | opens hi hnode hnone => exact .opens hi hnode ((hsame _ rfl).1.trans hnone)
  | bound hi hpoint hlast hw hs =>
    obtain ⟨hshare, hpoint'⟩ := hsame _ rfl
    exact .bound (hshare.trans hi) (hpoint'.trans hpoint) hlast hw hs
  | numbered hi hpoint hlast hw hs =>
    obtain ⟨hshare, hpoint'⟩ := hsame _ rfl
    exact .numbered (hshare.trans hi) (hpoint'.trans hpoint) hlast hw hs
  | serves hi hbelow htask hshows =>
    obtain ⟨hshare, hpoint'⟩ := hsame _ rfl
    exact .serves (hshare.trans hi) hbelow htask (hpoint' ▸ hshows)

/-- A bound on how many moves a chain has left that does not wait for others. -/
inductive Left (J : Jobs) (P : Plan) : Role → Chain → Nat → Prop
  | rests {o : Outcome} (c : Chain) : Left J P (.rests o) c c.stage.tail
  | opens {i n : Nat} {node : NodeId} (c : Chain)
    (h : (J.entry i).1.Lasts J.start.program (J.entry i).2 n) :
    Left J P (.opens i node) c (2 * n + 12)
  | bound {i : Nat} (c : Chain) : Left J P (.holds i none) c 8
  | numbered {i : Nat} {t : TaskId} (c : Chain) : Left J P (.holds i (some t)) c 7
  | serves {i n : Nat} {h : Share} {base : List Walk} {task : Option TaskId} (c : Chain)
    (hi : P.shares i = some h) (hl : (P.points i).Lasts J.start.program h.store n) :
    Left J P (.serves i base task) c (c.due n)

lemma Left.congr (h : J.Left P r c n) (hsame : ∀ i, r.job? = some i → P.SameFor Q i) :
    J.Left Q r c n := by
  cases h with
  | rests => exact .rests c
  | opens _ h => exact .opens c h
  | bound => exact .bound c
  | numbered => exact .numbered c
  | serves _ hi hl =>
    obtain ⟨hshare, hpoint⟩ := hsame _ rfl
    exact .serves c (hshare.trans hi) (hpoint ▸ hl)

/-- The first jobs have begun, up to one that may just begin, and every chain plays its role. -/
structure Crew (J : Jobs) (k : Nat) (P : Plan) (m : Machine) : Prop where
  program : m.program = J.start.program
  merged : Merged J.start.store J.footprint P.shares m.store
  known : ∀ i h, P.shares i = some h → i < J.count ∧ i ≤ k ∧
    (J.entry i).1.Comes J.start.program (J.entry i).2 (P.points i) h.store
  plays : ∀ x c, m.chain? x = some c → J.Plays P (P.roles x) c
  unique : ∀ x y i, (P.roles x).job? = some i → (P.roles y).job? = some i → x = y
  upto : ∀ x i, (P.roles x).job? = some i → i ≤ k
  latest : ∀ x i node, P.roles x = .opens i node → i = k
  spare : ∀ x, m.chain? x = none → P.roles x = .rests (.ok [])

namespace Crew

/-! ### Changes -/

/-- Only the accounts have changed. -/
lemma congr (h : J.Crew k P m) (hp : m'.program = m.program) (hs : m'.store = m.store)
    (hc : ∀ x, m'.chain? x = m.chain? x) : J.Crew k P m' where
  program := hp.trans h.program
  merged := hs ▸ h.merged
  known := h.known
  plays x c hx := h.plays x c (hc x ▸ hx)
  unique := h.unique
  upto := h.upto
  latest := h.latest
  spare x hx := h.spare x (hc x ▸ hx)

/-- A chain has changed, and what it has to do with its job. -/
lemma alter (h : J.Crew k P m) (ha : m.Alters x d s m')
    (hroles : Q.roles = Function.update P.roles x r)
    (hjob : ∀ i, r.job? = some i → (P.roles x).job? = some i) (hopens : r.isOpening = false)
    (hmerged : Merged J.start.store J.footprint Q.shares s)
    (hknown : ∀ i h, Q.shares i = some h → i < J.count ∧ i ≤ k ∧
      (J.entry i).1.Comes J.start.program (J.entry i).2 (Q.points i) h.store)
    (hsame : ∀ i, (P.roles x).job? ≠ some i → P.SameFor Q i)
    (hd : J.Plays Q r d) : J.Crew k Q m' := by
  have hself : Q.roles x = r := by rw [hroles, Function.update_self]
  have hothers : ∀ y, y ≠ x → Q.roles y = P.roles y := fun y hy => by
    rw [hroles, Function.update_of_ne hy]
  have hold : ∀ y i, (Q.roles y).job? = some i → (P.roles y).job? = some i := by
    intro y i hy
    by_cases hyx : y = x
    · subst hyx
      rw [hself] at hy
      exact hjob i hy
    · rwa [hothers y hyx] at hy
  refine ⟨ha.program.trans h.program, ha.store ▸ hmerged, hknown, fun y c hc => ?_,
    fun y z i hy hz => h.unique y z i (hold y i hy) (hold z i hz),
      fun y i hy => h.upto y i (hold y i hy),
    fun y i node hy => ?_, fun y hy => ?_⟩
  · by_cases hyx : y = x
    · subst hyx
      rw [ha.self] at hc
      cases hc
      rwa [hself]
    · rw [ha.others y hyx] at hc
      rw [hothers y hyx]
      exact (h.plays y c hc).congr fun i hi => hsame i fun hx => hyx (h.unique y x i hi hx)
  · by_cases hyx : y = x
    · subst hyx
      rw [hself] at hy
      rw [hy] at hopens
      cases hopens
    · rw [hothers y hyx] at hy
      exact h.latest y i node hy
  · have hyx : y ≠ x := by
      rintro rfl
      rw [ha.self] at hy
      cases hy
    rw [ha.others y hyx] at hy
    rw [hothers y hyx]
    exact h.spare y hy

/-- A chain has changed, and all jobs are where they were. -/
lemma stay (h : J.Crew k P m) (ha : m.Alters x d m.store m')
    (hjob : ∀ i, r.job? = some i → (P.roles x).job? = some i) (hopens : r.isOpening = false)
    (hd : J.Plays P r d) : J.Crew k (P.assign x r) m' :=
  h.alter ha rfl hjob hopens h.merged h.known (fun _ _ => ⟨rfl, rfl⟩)
    (hd.congr fun _ _ => ⟨rfl, rfl⟩)

/-- A chain has changed, and its job has come to another point. -/
lemma move (h : J.Crew k P m) (ha : m.Alters x d s m') (hx : (P.roles x).job? = some i)
    (hr : r.job? = some i) (hopens : r.isOpening = false) {g : Share} {e : Chain}
    (hlt : i < J.count) (hk : i ≤ k)
    (hcomes : (J.entry i).1.Comes J.start.program (J.entry i).2 e g.store)
    (hmerged : Merged J.start.store J.footprint (Function.update P.shares i (some g)) s)
    (hd : J.Plays (P.advance i g e) r d) : J.Crew k ((P.advance i g e).assign x r) m' := by
  refine h.alter ha rfl (fun j hj => ?_) hopens hmerged (fun j g' hj => ?_) (fun j hj => ?_)
    (hd.congr fun _ _ => ⟨rfl, rfl⟩)
  · rw [hx, ← hr, hj]
  · change (P.advance i g e).shares j = some g' at hj
    change _ ∧ _ ∧ (J.entry j).1.Comes _ _ ((P.advance i g e).points j) _
    by_cases hji : j = i
    · subst hji
      rw [Plan.share_advance] at hj
      cases hj
      rw [Plan.point_advance]
      exact ⟨hlt, hk, hcomes⟩
    · obtain ⟨hshare, hpoint⟩ := P.sameFor_advance hji g e
      rw [hshare] at hj
      rw [hpoint]
      exact h.known j g' hj
  · refine P.sameFor_advance ?_ g e
    rintro rfl
    exact hj hx

/-- There is one more chain. -/
lemma add (h : J.Crew k P m) (hd : J.Plays P r d)
    (hfree : ∀ x i, r.job? = some i → (P.roles x).job? ≠ some i)
    (hupto : ∀ i, r.job? = some i → i ≤ k) (hlatest : ∀ i node, r = .opens i node → i = k) :
    J.Crew k (P.assign m.nextChain r) (m.addChain d).2 := by
  have hself := P.assign_self m.nextChain r
  have hothers : ∀ y, y ≠ m.nextChain → (P.assign m.nextChain r).roles y = P.roles y :=
    fun y hy => Plan.assign_of_ne hy r
  have hchain : ∀ y, y ≠ m.nextChain → (m.addChain d).2.chain? y = m.chain? y := by
    intro y hy
    have hne : y.index ≠ m.chains.size := fun he => hy (congrArg ChainId.mk he)
    rw [Machine.chain?_addChain_eq, if_neg hne]
  refine ⟨h.program, h.merged, h.known, fun y c hc => ?_, fun y z i hy hz => ?_, fun y i hy => ?_,
    fun y i node hy => ?_, fun y hy => ?_⟩
  · refine Plays.congr (P := P) ?_ fun _ _ => ⟨rfl, rfl⟩
    by_cases hyx : y = m.nextChain
    · subst hyx
      rw [m.chain?_addChain] at hc
      cases hc
      rwa [hself]
    · rw [hchain y hyx] at hc
      rw [hothers y hyx]
      exact h.plays y c hc
  · by_cases hyx : y = m.nextChain <;> by_cases hzx : z = m.nextChain
    · rw [hyx, hzx]
    · rw [hyx, hself] at hy
      rw [hothers z hzx] at hz
      exact absurd hz (hfree z i hy)
    · rw [hzx, hself] at hz
      rw [hothers y hyx] at hy
      exact absurd hy (hfree y i hz)
    · rw [hothers y hyx] at hy
      rw [hothers z hzx] at hz
      exact h.unique y z i hy hz
  · by_cases hyx : y = m.nextChain
    · rw [hyx, hself] at hy
      exact hupto i hy
    · rw [hothers y hyx] at hy
      exact h.upto y i hy
  · by_cases hyx : y = m.nextChain
    · rw [hyx, hself] at hy
      exact hlatest i node hy
    · rw [hothers y hyx] at hy
      exact h.latest y i node hy
  · have hyx : y ≠ m.nextChain := by
      rintro rfl
      rw [m.chain?_addChain] at hy
      cases hy
    rw [hchain y hyx] at hy
    rw [hothers y hyx]
    exact h.spare y hy

end Crew

end Jobs

end Flowgraph
