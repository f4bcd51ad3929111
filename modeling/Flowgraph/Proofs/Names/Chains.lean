import Flowgraph.Machine.Basic
import Flowgraph.Proofs.Names.Operation

/-!
# Chains follow renaming

A renamed chain does in a renamed store what the chain does in the store itself.
-/

namespace Flowgraph

open Named

variable {π : Renaming} {p : Program}

instance : Named Walk where
  rename π w := { w with activation := rename π w.activation }
  Mentions w := Mentions w.activation
  rename_id _ := by simp
  rename_rename _ _ _ := by simp
  rename_eq_iff _ _ _ := by simp [rename_eq_iff]

instance : Named Stage where
  rename π
    | .call callee receiver args => .call (rename π callee) (rename π receiver) (rename π args)
    | .start depth callee => .start depth (rename π callee)
    | .deliver vs => .deliver (rename π vs)
    | .send c v phase => .send (rename π c) (rename π v) phase
    | .receive c purpose phase => .receive (rename π c) (rename π purpose) phase
    | .received purpose v => .received (rename π purpose) (rename π v)
    | .spawn callee => .spawn (rename π callee)
    | .launch task callee => .launch task (rename π callee)
    | .exit outcome => .exit (rename π outcome)
    | .leave outcome => .leave (rename π outcome)
    | .ended outcome => .ended (rename π outcome)
    | stage => stage
  Mentions stage T k := match stage with
    | .call callee receiver args => Mentions callee T k ∨ Mentions receiver T k ∨ Mentions args T k
    | .start _ callee | .spawn callee | .launch _ callee => Mentions callee T k
    | .deliver vs => Mentions vs T k
    | .send c v _ => Mentions c T k ∨ Mentions v T k
    | .receive c purpose _ => Mentions c T k ∨ Mentions purpose T k
    | .received purpose v => Mentions purpose T k ∨ Mentions v T k
    | .exit outcome | .leave outcome | .ended outcome => Mentions outcome T k
    | _ => False
  rename_id stage := by cases stage <;> simp
  rename_rename σ π stage := by cases stage <;> simp
  rename_eq_iff ρ σ stage := by cases stage <;> simp [rename_eq_iff, or_imp, forall_and]

instance : Named Chain where
  rename π c := { c with walks := rename π c.walks, stage := rename π c.stage }
  Mentions c T k := Mentions c.walks T k ∨ Mentions c.stage T k
  rename_id _ := by simp
  rename_rename _ _ _ := by simp
  rename_eq_iff _ _ _ := by simp [rename_eq_iff, or_imp, forall_and]

namespace Chain

lemma rename_stageAfter (depth : Nat) (pending : Pending) :
    stageAfter depth (rename π pending) = rename π (stageAfter depth pending) := by
  cases pending <;> rfl

lemma follows_walk (hπ : π.Injective) (hg : rename π globalFrame = globalFrame) (hp : p.Loaded)
    (c : Chain) : Op.Follows π (c.walk p) ((rename π c).walk p) := by
  obtain ⟨task, walks, stage⟩ := c
  cases walks with
  | nil => exact .pure rfl
  | cons w rest =>
    obtain ⟨a, node, depth⟩ := w
    cases node with
    | none => exact .bind (.look (Program.follows_results a)) fun vs => .pure rfl
    | some id =>
      refine .bind (Program.follows_perform hπ hg hp a.frame id) fun pending => .pure ?_
      exact congrArg (Chain.mk _ _) (rename_stageAfter depth pending)

lemma follows_follow (hp : p.Loaded) (c : Chain) :
    Op.Follows π (c.follow p) ((rename π c).follow p) := by
  obtain ⟨task, walks, stage⟩ := c
  cases walks with
  | nil => exact .pure rfl
  | cons w rest =>
    obtain ⟨a, node, depth⟩ := w
    cases node with
    | none => exact .pure rfl
    | some id =>
      refine .bind (.look (Program.follows_successor hp a.frame id)) fun next => .pure ?_
      cases next <;> rfl

lemma follows_reply (c : Chain) (reply : Reply) :
    Op.Follows π (c.reply reply) ((rename π c).reply (rename π reply)) := by
  cases reply with
  | results vs => exact .pure rfl
  | print line vs => exact .bind (Op.follows_writeLine line) fun _ => .pure rfl
  | stop e => exact .throw _
  | call f args => exact .pure rfl

lemma follows_start (hn : p.natives.Blind) (c : Chain) (depth : Nat) (callee : Callee) :
    Op.Follows π (c.start p depth callee) ((rename π c).start p depth (rename π callee)) := by
  cases callee with
  | declared a =>
    unfold start
    cases p.config.maxCallDepth with
    | none => exact .pure rfl
    | some limit => exact .ite Iff.rfl (.throw _) (.pure rfl)
  | native name args =>
    simp only [start, rename]
    cases h : p.natives.symbol? name with
    | none => exact .throw _
    | some symbol =>
      refine .inspect (fun s => ?_) fun s t hst => ?_
      · exact (follows_reply (π := π) c (symbol.run p.config s args)).grows s
      · have hreply := follows_reply (π := π) c (symbol.run p.config s args)
        rw [← hn.of_symbol? h π p.config s t args hst] at hreply
        exact hreply

lemma follows_deliver (c : Chain) (vs : List Value) :
    Op.Follows π (c.deliver p vs) ((rename π c).deliver p (rename π vs)) := by
  obtain ⟨task, walks, stage⟩ := c
  cases walks with
  | nil => exact .pure rfl
  | cons w rest =>
    obtain ⟨a, node, depth⟩ := w
    cases node with
    | none => exact .pure rfl
    | some id => exact .bind (Program.follows_storeResults a.frame id vs) fun _ => .pure rfl

lemma follows_received (c : Chain) (purpose : Purpose) (v : Option Value) :
    Op.Follows π (c.received p purpose v)
      ((rename π c).received p (rename π purpose) (rename π v)) := by
  obtain ⟨task, walks, stage⟩ := c
  have hexit : ∀ walks : List Walk, Op.Follows π
      (pure (Chain.exit ⟨task, walks, stage⟩ (.ok v.toList)))
      (pure (Chain.exit ⟨task, rename π walks, rename π stage⟩ (.ok (rename π v).toList))) :=
    fun walks => .pure (by cases v <;> rfl)
  cases walks with
  | nil => exact hexit []
  | cons w rest =>
    obtain ⟨a, node, depth⟩ := w
    cases node with
    | none => exact hexit _
    | some id =>
      cases purpose with
      | result => exact .bind (Program.follows_storeReceived a.frame id v) fun _ => .pure rfl
      | visit next =>
        exact .bind (Program.follows_visitReceived a.frame id next v) fun _ => .pure rfl

/-- A chain makes the same steps whatever things are named. -/
theorem follows_advance (hπ : π.Injective) (hg : rename π globalFrame = globalFrame)
    (hp : p.Loaded) (hn : p.natives.Blind) {c : Chain} {step : Op Chain}
    (hs : c.advance p = some step) :
    ∃ step', (rename π c).advance p = some step' ∧ Op.Follows π step step' := by
  obtain ⟨task, walks, stage⟩ := c
  cases stage with
  | walk =>
    cases hs
    exact ⟨_, rfl, follows_walk hπ hg hp _⟩
  | follow =>
    cases hs
    exact ⟨_, rfl, follows_follow hp _⟩
  | call callee receiver args =>
    cases hs
    exact ⟨_, rfl, .bind (Program.follows_bindValues hg callee receiver args) fun _ => .pure rfl⟩
  | start depth callee =>
    cases hs
    exact ⟨_, rfl, follows_start hn _ depth callee⟩
  | deliver vs =>
    cases hs
    exact ⟨_, rfl, follows_deliver _ vs⟩
  | received purpose v =>
    cases hs
    exact ⟨_, rfl, follows_received _ purpose v⟩
  | abandon message =>
    cases hs
    exact ⟨_, rfl, .throw _⟩
  | _ => cases hs

/-- What becomes of a chain and the store when the chain, by itself, makes its next step. A pause
is over at once. -/
def next (p : Program) (c : Chain) (s : Store) : Option (Chain × Store) :=
  match c.stage with
  | .pause _ => some (c.proceed, s)
  | _ => (c.advance p).map fun step =>
    match step s with
    | .ok c' s' => (c', s')
    | .error e s' => (Machine.stopChain c e, s')

lemma next_of_advance {c : Chain} {step : Op Chain} (hs : c.advance p = some step) (s : Store) :
    c.next p s = match step s with
      | .ok c' s' => some (c', s')
      | .error e s' => some (Machine.stopChain c e, s') := by
  obtain ⟨task, walks, stage⟩ := c
  cases stage
  case pause => cases hs
  all_goals
    simp only [next, hs, Option.map_some]
    split <;> rfl

lemma Steps.next {c d : Chain} {s t : Store} (h : c.Steps p s d t) : c.next p s = some (d, t) := by
  obtain ⟨step, ha, hstep⟩ := h.advance
  rw [next_of_advance ha, hstep]

lemma rename_proceed (π : Renaming) (c : Chain) : rename π c.proceed = (rename π c).proceed := by
  obtain ⟨task, walks, stage⟩ := c
  cases walks <;> rfl

lemma rename_stopChain (π : Renaming) (c : Chain) (e : Stop) :
    rename π (Machine.stopChain c e) = Machine.stopChain (rename π c) e := by
  cases e <;> rfl

/-- The next step of a renamed chain in a renamed store is the renamed step. -/
theorem next_rename (hπ : π.Injective) (hg : rename π globalFrame = globalFrame)
    (hp : p.Loaded) (hn : p.natives.Blind) {c c' : Chain} {s s' : Store}
    (h : c.next p s = some (c', s')) :
    s.Grows s' ∧ ∀ t, s.Renamed π t → s.Fixes π s' →
      ∃ t', (rename π c).next p t = some (rename π c', t') ∧ s'.Renamed π t' := by
  cases hs : c.advance p with
  | some step =>
    obtain ⟨step', hs', hfollows⟩ := follows_advance hπ hg hp hn hs
    rw [next_of_advance hs] at h
    have hgrows := hfollows.grows s
    rw [Op.after] at hgrows
    cases hr : step s with
    | ok d u =>
      rw [hr] at h hgrows
      cases h
      refine ⟨hgrows, fun t hst hfix => ?_⟩
      have hm := hfollows.agrees s t hst (by rwa [Op.after, hr])
      rw [next_of_advance hs']
      rw [hr] at hm
      generalize step' t = r at hm
      cases hm with
      | ok hst' => exact ⟨_, rfl, hst'⟩
    | error e u =>
      rw [hr] at h hgrows
      cases h
      refine ⟨hgrows, fun t hst hfix => ?_⟩
      have hm := hfollows.agrees s t hst (by rwa [Op.after, hr])
      rw [next_of_advance hs']
      rw [hr] at hm
      generalize step' t = r at hm
      cases hm with
      | error hst' => exact ⟨_, by rw [rename_stopChain], hst'⟩
  | none =>
    obtain ⟨task, walks, stage⟩ := c
    cases stage
    case pause milliseconds =>
      cases h
      exact ⟨.refl s, fun t hst _ => ⟨t, by rw [rename_proceed]; rfl, hst⟩⟩
    all_goals
      simp only [next, hs] at h
      cases h

end Chain

end Flowgraph
