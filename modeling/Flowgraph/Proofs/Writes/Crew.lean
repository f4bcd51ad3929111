import Mathlib.Tactic.Common
import Flowgraph.Proofs.Writes.Beyond

/-!
# Who takes part in a call

A call is carried out by the chain that calls, until it has taken the results, and by all tasks
that are spawned on the way. When no destination lies further out, none of them writes to a frame
that was there before the call, except that the node that called takes the results.
-/

namespace Flowgraph

variable {p : Program} {N : Nat} {base : List Walk} {id x : ChainId} {c d : Chain}
  {m start : Machine} {crew : ChainId → Prop}

namespace Machine

/-- A call has returned: the chain has the walks that it had before, and results at hand. -/
def Returned (m : Machine) (id : ChainId) (base : List Walk) (vs : List Value) : Prop :=
  ∃ c, m.chain? id = some c ∧ c.walks = base ∧ c.stage = .deliver vs

/-- Who takes part in a call after a move: those who did before, without the chain that called if
it takes the results, and a task that one of them launches, unless its thread is refused. -/
def crewAfter (m : Machine) (id : ChainId) (base : List Walk) (mv : Move)
    (crew : ChainId → Prop) (x : ChainId) : Prop :=
  crew x ∧ ¬(mv = .run id ∧ x = id ∧ ∃ vs, m.Returned id base vs) ∨
    ∃ y c task callee, mv = .run y ∧ crew y ∧ m.chain? y = some c ∧
      c.stage = .launch task callee ∧ m.program.config.refusal? task.index = none ∧
      x = ⟨m.chains.size⟩

/-- What a machine comes to after a chain has begun to call, in whichever order moves are made,
and who takes part in the call then. -/
inductive InCall (id : ChainId) (base : List Walk) (start : Machine) :
    Machine → (ChainId → Prop) → Prop
  | call : InCall id base start start (· = id)
  | move {m : Machine} {crew : ChainId → Prop} (mv : Move) (h : InCall id base start m crew) :
    InCall id base start (m.step mv) (m.crewAfter id base mv crew)

/-- What is known of chains that take part: only the one that calls has walks from before, and
those are suspended. -/
inductive Member (p : Program) (N : Nat) (id : ChainId) (base : List Walk) :
    ChainId → Chain → Prop
  | calling {c : Chain} {w : Walk} {rest : List Walk} (hs : c.stage = .walk)
    (hw : c.walks = w :: rest) (hcall : w.At p .call) (hbase : c.walks = base) :
    Member p N id base id c
  | caller {c : Chain} (h : c.Beyond N base) : Member p N id base id c
  | task {x : ChainId} {c : Chain} (h : c.Beyond N []) : Member p N id base x c

lemma Member.of_later (h : c.Later N base) : Member p N id base id c := by
  rcases h with h | h
  · exact .caller h
  · exact .task h

lemma Member.of_later_nil (h : c.Later N []) : Member p N id base x c := .task (or_self_iff.mp h)

lemma Member.restaged (h : Member p N id base x c) (hr : m.Restaged c d) :
    Member p N id base x d := by
  cases h with
  | calling hs => cases hr <;> simp_all
  | caller h => exact .of_later (h.restaged hr)
  | task h => exact .of_later_nil (h.restaged hr)

/-- What a step of a chain by itself makes of it, however the step ends. -/
lemma later_of_step {step : Op Chain} (hN : N ≤ m.store.frames.size)
    (hk : Op.Keeps (fun s => N ≤ s.frames.size) (fun _ => True) step (Chain.Later N base))
    (hstop : ∀ e, (stopChain c e).Later N base) (h : match step m.store with
      | .ok d' _ => d = d'
      | .error e _ => d = stopChain c e) : d.Later N base := by
  have hstep := hk m.store hN
  cases hr : step m.store with
  | ok d' s =>
    rw [hr] at hstep h
    rw [h]
    exact hstep.2
  | error e s =>
    rw [hr] at h
    rw [h]
    exact hstop e

lemma member_step (hfit : m.Fits) (hN : N ≤ m.store.frames.size) (hc : m.chain? x = some c)
    (hmember : Member m.program N id base x c) (mv : Move)
    (hret : ¬(mv = .run id ∧ x = id ∧ ∃ vs, m.Returned id base vs))
    (hd : (m.step mv).chain? x = some d) : Member m.program N id base x d := by
  rcases m.step_cases mv with hp | ⟨y, e, step, rfl, he, ha, hstep⟩
  · rcases hp.chains x d hd with hd | ⟨e, he, hr⟩ | ⟨-, -, -, -, -, -, -, rfl, -⟩
    · rw [hc] at hd
      cases hd
      exact hmember
    · rw [hc] at he
      cases he
      exact hmember.restaged hr
    · exact absurd (Array.getElem?_eq_some_iff.mp hc).1 (Nat.lt_irrefl _)
  · rw [hstep] at hd
    rcases of_chain?_stepChain hd with hd | ⟨rfl, hnext⟩
    · rw [hc] at hd
      cases hd
      exact hmember
    · rw [hc] at he
      cases he
      cases hmember with
      | calling hs hw hcall hbase =>
        rw [Chain.advance, hs] at ha
        cases ha
        subst hbase
        have hk := Chain.later_call (N := N) hw hcall
        exact .of_later (later_of_step hN hk c.later_stopChain_self hnext)
      | caller h =>
        have hbase : ∀ vs, c.stage = .deliver vs → base = [] ∨ c.walks ≠ base := by
          intro vs hs
          exact .inr fun hw => hret ⟨rfl, rfl, vs, c, hc, hw, hs⟩
        have hk := Chain.later_advance h (hfit _ c hc) hbase ha
        exact .of_later (later_of_step hN hk h.stopChain hnext)
      | task h =>
        have hk := Chain.later_advance h (hfit x c hc) (fun _ _ => .inl rfl) ha
        exact .of_later_nil (later_of_step hN hk h.stopChain hnext)

lemma chain?_launch {y : ChainId} {task : TaskId} {callee : Callee} (hc : m.chain? y = some c)
    (hs : c.stage = .launch task callee) (hr : m.program.config.refusal? task.index = none) :
    (m.step (.run y)).chain? ⟨m.chains.size⟩ = some (.ofTask task callee) := by
  have hne : (⟨m.chains.size⟩ : ChainId) ≠ y := by
    rintro rfl
    exact absurd (Array.getElem?_eq_some_iff.mp hc).1 (Nat.lt_irrefl _)
  rw [step_grant hc hs hr, grant, chain?_setChain_of_ne hne, addChain, chain?]
  exact Array.getElem?_push_size

/-- All that take part work in later frames. -/
lemma InCall.members (hfit : start.Fits) (hc : start.chain? id = some c) (hs : c.stage = .walk)
    {w : Walk} {rest : List Walk} (hw : c.walks = w :: rest) (hcall : w.At start.program .call)
    (h : InCall id c.walks start m crew) :
    m.program = start.program ∧ m.Fits ∧ start.store.frames.size ≤ m.store.frames.size ∧
      ∀ x, crew x → ∃ d, m.chain? x = some d ∧
        Member m.program start.store.frames.size id c.walks x d := by
  induction h with
  | call =>
    refine ⟨rfl, hfit, Nat.le_refl _, fun x hx => ⟨c, by rw [hx, hc], ?_⟩⟩
    rw [hx]
    exact .calling hs hw hcall rfl
  | @move m crew mv h ih =>
    obtain ⟨hprogram, hfits, hsize, hmembers⟩ := ih
    refine ⟨by rw [program_step, hprogram], hfits.step mv,
      Nat.le_trans hsize (only_step hfits mv).size, fun x hx => ?_⟩
    rw [program_step]
    rcases hx with ⟨hx, hret⟩ | ⟨y, e, task, callee, rfl, hy, he, hstage, hr, rfl⟩
    · obtain ⟨d, hd, hmember⟩ := hmembers x hx
      obtain ⟨d', hd'⟩ := exists_chain?_step ⟨d, hd⟩ mv
      exact ⟨d', hd', member_step hfits hsize hd hmember mv hret hd'⟩
    · obtain ⟨e', he', hmember⟩ := hmembers y hy
      rw [he] at he'
      cases he'
      refine ⟨_, chain?_launch he hstage hr, .task (Chain.beyond_of_walks rfl ?_)⟩
      cases hmember with
      | calling hs => rw [hstage] at hs; cases hs
      | caller h =>
        have hcallee := h.stage
        rwa [hstage] at hcallee
      | task h =>
        have hcallee := h.stage
        rwa [hstage] at hcallee

end Machine

/-! ### Programs without destinations further out -/

/-- All destinations lie in the frame of their own activation. -/
def Program.Local (p : Program) : Prop :=
  ∀ id n d k, p.node id = .ok n → d ∈ Program.destinations n → p.node d = .ok k → k.level = 0

instance (p : Program) : Decidable p.Local :=
  decidable_of_iff (∀ e ∈ p.graph.entries, ∀ d ∈ Program.destinations e.2,
      ∀ k ∈ p.graph.node? d, k.level = 0)
    ⟨fun h id n d k hn hd hk => h (id, n) (Program.node_eq_ok_iff_mem.mp hn) d hd k
      (Program.node_eq_ok.mp hk),
    fun h e he d hd k hk => h e.1 e.2 d k (Program.node_eq_ok_iff_mem.mpr he) hd
      (Program.node_eq_ok.mpr hk)⟩

lemma Program.Local.place {s : Store} {f g : FrameId} {node : NodeId} {n : Node} {i : Nat}
    (h : p.Local) (hn : p.node node = .ok n) (hp : p.Place s f n g i) : g = f := by
  rcases hp with rfl | ⟨d, hd, k, hk, hlevel, -⟩
  · rfl
  · have hzero := h node n d k hn hd hk
    omega

/-- A chain that works in later frames writes to no other frame, unless it takes the results of
the call. -/
lemma Chain.Beyond.writes {s : Store} {g : FrameId} {i : Nat} (h : c.Beyond N base)
    (hlocal : p.Local) (hw : c.Writes p s g i) : N ≤ g.index ∨
      c.walks = base ∧ base ≠ [] ∧ ∃ vs, c.stage = .deliver vs := by
  cases hw with
  | operation hw hn hc hs hp =>
    have hcalling : c.stage.isCalling = false := by
      rcases hs with hs | ⟨purpose, v, hs⟩ <;> rw [hs] <;> rfl
    rw [hlocal.place hn hp]
    exact .inl (h.topmost hcalling hw).1
  | @results a node depth rest n slot vs hw hn hs hslot hg hi =>
    obtain ⟨ws, hws, hframes, -⟩ := h.walks
    cases ws with
    | nil =>
      have hbase : c.walks = base := hws
      exact .inr ⟨hbase, by rw [← hbase, hw]; exact List.cons_ne_nil _ _, vs, hs⟩
    | cons w ws =>
      rw [hw] at hws
      cases hws
      rw [hg]
      exact .inl (hframes _ List.mem_cons_self)

namespace Machine

/-- Where a chain that takes part in a call may write: in frames that are later than the call, and
for the results of the call in the slots of the node. -/
def TakesPart (m : Machine) (id : ChainId) (base : List Walk) (N : Nat) (f : FrameId) (n : Node)
    (x : ChainId) (g : FrameId) (i : Nat) : Prop :=
  N ≤ g.index ∨ x = id ∧ g = f ∧ ∃ vs slot, m.Returned id base vs ∧ n.slot = some slot ∧
    slot ≤ i ∧ i < slot + min n.width vs.length

lemma Member.writes {a : Activation} {node : NodeId} {depth : Nat} {rest : List Walk} {n : Node}
    {g : FrameId} {i : Nat} (h : Member m.program N id (⟨a, some node, depth⟩ :: rest) x c)
    (hc : m.chain? x = some c) (hlocal : m.program.Local) (hn : m.program.node node = .ok n)
    (hw : c.Writes m.program m.store g i) :
    m.TakesPart id (⟨a, some node, depth⟩ :: rest) N a.frame n x g i := by
  cases h with
  | calling hs hwalks hcall =>
    obtain ⟨node', n', hnode', hn', hk⟩ := hcall
    cases hw with
    | operation hw hn hc =>
      rw [hwalks] at hw
      cases hw
      cases hnode'
      rw [hn'] at hn
      cases hn
      exact absurd hk hc
    | results _ _ hs' =>
      rw [hs] at hs'
      cases hs'
  | caller h =>
    rcases h.writes hlocal hw with hlater | ⟨hbase, -, vs, hs⟩
    · exact .inl hlater
    · cases hw with
      | operation _ _ _ hs' =>
        rw [hs] at hs'
        rcases hs' with hs' | ⟨purpose, v, hs'⟩ <;> cases hs'
      | results hw hn' hs' hslot hg hi =>
        rw [hbase] at hw
        cases hw
        rw [hn] at hn'
        cases hn'
        exact .inr ⟨rfl, hg, _, _, ⟨c, hc, hbase, hs'⟩, hslot, hi⟩
  | task h =>
    rcases h.writes hlocal hw with hlater | ⟨-, hne, -⟩
    · exact .inl hlater
    · exact absurd rfl hne

/-- Only destinations cross frames: a move writes to the frame of the activation that it belongs
to, and further out only where a destination says so. So when no destination does, whoever takes
part in a call leaves all frames alone that were there before the call, except that the node that
called takes the results. -/
theorem writes_confined (hstart : start.chains = #[])
    (hm : Reachable (fun _ c => c.Hosted) start m) :
    (∀ mv, Store.Only (m.Writes mv) m.store (m.step mv).store) ∧
      ∀ id c a node depth rest n, m.program.Local → m.chain? id = some c → c.stage = .walk →
        c.walks = ⟨a, some node, depth⟩ :: rest → m.program.node node = .ok n → n.kind = .call →
          ∀ m' crew, InCall id c.walks m m' crew → ∀ x, crew x →
            Store.Only (m'.TakesPart id c.walks m.store.frames.size a.frame n x) m'.store
              (m'.step (.run x)).store := by
  have hfit : m.Fits := by
    induction hm with
    | start =>
      intro x c hx
      simp [chain?, hstart] at hx
    | move mv _ ih => exact ih.step mv
    | host _ hc ih => exact ih.addChain (fits_hosted hc)
  refine ⟨only_step hfit, ?_⟩
  intro id c a node depth rest n hlocal hc hs hw hn hk m' crew h x hx
  obtain ⟨hprogram, hfit', -, hmembers⟩ := h.members hfit hc hs hw ⟨node, n, rfl, hn, hk⟩
  obtain ⟨d, hd, hmember⟩ := hmembers x hx
  refine (only_step hfit' (.run x)).mono fun g i hwrites => ?_
  obtain ⟨y, e, hy, he, hwrites⟩ := hwrites
  cases hy
  rw [hd] at he
  cases he
  rw [hw] at hmember ⊢
  exact hmember.writes hd (hprogram ▸ hlocal) (hprogram ▸ hn) hwrites

/-- A call of a function that assigns to a slot of its own. -/
def settingCall : Graph where
  globals := 1
  nodes := #[
    { kind := .funcDecl,
      payload := some (.definition
        { name := "seven", frameSize := 1, results := 1, entry := some ⟨1⟩ }) },
    { kind := .assign, children := [⟨2⟩, ⟨3⟩] },
    { kind := .ident, slot := some 0 },
    { kind := .basicLit, payload := some (.literal (.int 7)) },
    { kind := .call, children := [⟨0⟩], slot := some 0 }]

theorem writes_confined_setting : ∃ p, Program.load settingCall .empty {} = .ok p ∧ p.Local ∧
    ∀ m' crew, InCall ⟨0⟩ (Chain.atNode ⟨4⟩).walks ((ofProgram p true).addChain (.atNode ⟨4⟩)).2
      m' crew → ∀ x, crew x →
        Store.Only (m'.TakesPart ⟨0⟩ (Chain.atNode ⟨4⟩).walks 1 globalFrame settingCall.nodes[4] x)
          m'.store (m'.step (.run x)).store := by
  refine ⟨_, rfl, by decide, ?_⟩
  exact (@writes_confined _ (ofProgram _ true) rfl (.host .start (.atNode ⟨4⟩))).2 ⟨0⟩ (.atNode ⟨4⟩)
    ⟨globalFrame, ⟨4⟩, some ⟨4⟩, 0⟩ ⟨4⟩ 0 [] _ (by decide) rfl rfl rfl rfl rfl

end Machine

end Flowgraph
