import Mathlib.Tactic.Common
import Flowgraph.Native.Standard
import Flowgraph.Proofs.Spawn.Fixed

/-!
# What a spawned task begins with

When a node spawns a task, the callee, the receiver and the arguments are read in the frame of the
node. A declared function gets its frame at once, with all of them in their slots, and a native is
given them when the task runs.
-/

namespace Flowgraph

open Named

variable {p : Program} {s : Store}

/-- What a node refers to is determined by the store. -/
lemma Program.Resolves.unique {f : FrameId} {id : NodeId} {callee callee' : Value}
    {receiver receiver' : Option Value} {args args' : List Value}
    (h : p.Resolves s f id callee receiver args) (h' : p.Resolves s f id callee' receiver' args') :
    callee = callee' ∧ receiver = receiver' ∧ args = args' := by
  obtain ⟨n, c, part, hn, hc, hpart, hv, hr, ha⟩ := h
  obtain ⟨n', c', part', hn', hc', hpart', hv', hr', ha'⟩ := h'
  cases hn.symm.trans hn'
  cases hc.symm.trans hc'
  cases hpart.symm.trans hpart'
  exact ⟨Except.ok.inj (hv.symm.trans hv'), Except.ok.inj (hr.symm.trans hr'),
    Except.ok.inj (ha.symm.trans ha')⟩

namespace Machine

variable {m m' loaded : Machine} {x y : ChainId} {c : Chain} {a b : Activation} {id : NodeId}
  {n : Node} {depth : Nat} {rest : List Walk} {callee : Callee}

/-! ### The move that spawns -/

/-- Whoever spawns has bound the call. -/
lemma of_spawn (hc : m.chain? x = some c) (hs : c.stage = .walk)
    (hw : c.walks = ⟨b, some id, depth⟩ :: rest) (hn : m.program.node id = .ok n)
    (hk : n.kind = .spawn)
    (hspawn : (m.step (.run x)).chain? x = some { c with stage := .spawn callee }) :
    ∃ s, m.program.bindCall b.frame id "go" m.store = .ok callee s ∧
      m.step (.run x) = (m.mapStore fun _ => s).setChain x { c with stage := .spawn callee } := by
  have ha : c.advance m.program = some (c.walk m.program) := by simp only [Chain.advance, hs]
  have hwalk : c.walk m.program m.store = ((m.program.bindCall b.frame id "go" >>= fun callee =>
      pure { c with stage := .spawn callee }) : Op Chain) m.store := by
    simp only [Chain.walk, hw]
    rw [Op.bind_apply, Program.perform, Op.except_bind_apply, hn]
    dsimp only
    rw [hk, Program.operation, Op.bind_apply, Op.bind_apply]
    cases m.program.bindCall b.frame id "go" m.store <;> rfl
  rw [step, run_of_advance hc ha, stepChain_eq, hwalk, Op.bind_apply] at hspawn ⊢
  cases hb : m.program.bindCall b.frame id "go" m.store with
  | ok callee' s =>
    rw [hb] at hspawn
    dsimp only [Op.pure_apply] at hspawn
    rw [chain?_setChain_self (by exact hc)] at hspawn
    cases Stage.spawn.inj (congrArg Chain.stage (Option.some.inj hspawn))
    exact ⟨s, rfl, rfl⟩
  | error e s =>
    rw [hb] at hspawn
    dsimp only at hspawn
    rw [chain?_setChain_self (by exact hc)] at hspawn
    have hstage := congrArg Chain.stage (Option.some.inj hspawn)
    cases e <;> cases hstage

/-- A frame that was just added for a call is hidden. -/
lemma stands_of_spawn (hm : m.Grounded) (hp : m.program.Loaded) (hc : m.chain? x = some c)
    (hw : c.walks = ⟨b, some id, depth⟩ :: rest) {decl : NodeId} {parent : FrameId}
    {receiver : Option Value} {args : List Value}
    (hb : m.program.bindingOf b.frame id "go" m.store = .ok (.declared decl parent receiver args))
    (ha : m.program.activate decl parent receiver args m.store = .ok (.declared a) s)
    (hstep : m.step (.run x) =
      (m.mapStore fun _ => s).setChain x { c with stage := .spawn (.declared a) }) :
    (m.step (.run x)).Stands a x ((m.step (.run x)).store.slots a.frame) .held := by
  have hchain := hm.chains x c hc
  have hframe : b.frame.index < m.store.frames.size :=
    hchain .frames _ (.inl ⟨_, hw ▸ List.mem_cons_self, rfl, rfl⟩)
  have hbinding := Program.within_bindingOf hp hm.store hframe hb
  have hactivates := m.program.activates decl parent receiver args m.store
  rw [ha] at hactivates
  obtain ⟨d, -, ⟨slots, hfilled, rfl⟩, he⟩ := hactivates
  cases he
  have hslots : ∀ v ∈ slots, Within m.store.size v := by
    intro v hv
    rcases hfilled.content v hv with rfl | hv | hv
    · exact fun T k hk => hk.elim
    · exact fun T k hk => hbinding T k (.inr (.inl ⟨v, hv, hk⟩))
    · exact fun T k hk => hbinding T k (.inr (.inr ⟨v, hv, hk⟩))
  have hparent : parent.index < m.store.frames.size := hbinding .frames _ (.inl ⟨rfl, rfl⟩)
  have hmisses : ∀ y d, m.chain? y = some d → d.Misses m.store.nextFrame := fun y d hd =>
    Chain.misses_of_mentions (not_mentions_of_within (hm.chains y d hd) (Nat.le_refl _))
  rw [hstep]
  refine .held (.spawning (chain?_setChain_self (by exact hc)) rfl) (hmisses x c hc).walks ?_ rfl
  constructor
  · exact hm.store.hides hslots hparent
  · exact fun y d hy hd => hmisses y d ((chain?_setChain_of_ne hy).symm.trans hd)

/-! ### Arguments of tasks -/

/-- The next move of a chain invokes a native with arguments. -/
def Invokes (m : Machine) (y : ChainId) (name : String) (args : List Value) : Prop :=
  ∃ t, m.chain? y = some (.ofTask t (.native name args)) ∧
    ∀ symbol, m.program.natives.symbol? name = some symbol →
      m.step (.run y) = m.stepChain y (.ofTask t (.native name args))
        ((Chain.ofTask t (.native name args)).reply (symbol.run m.program.config m.store args))

/-- A native that was spawned is invoked by the first move of the task. -/
lemma Unfolds.invokes {start : Machine} {name : String} {args : List Value}
    (h : Unfolds x (.native name args) start (.launched y 0) m) (hc : start.chain? x = some c)
    (hs : c.stage = .spawn (.native name args)) : m.Invokes y name args := by
  obtain ⟨z, d, hholder⟩ := (h.holder hc hs).resolve_right (by
    rintro (⟨_, _, he⟩ | he) <;> cases he)
  cases hholder with
  | @ready _ t hy =>
    refine ⟨t, hy, fun symbol hsymbol => ?_⟩
    have ha : (Chain.ofTask t (.native name args)).advance m.program =
        some ((Chain.ofTask t (.native name args)).start m.program 1 (.native name args)) := rfl
    rw [step, run_of_advance hy ha, stepChain_eq, stepChain_eq]
    simp only [Chain.start, hsymbol]
    rfl

/-- A machine that a host has come to runs what was loaded. -/
lemma Attains.sound {graph : Graph} {natives : Registry} {config : Config} {kept : Bool}
    (hm : loaded.Attains m) (hload : load graph natives config kept = .ok loaded)
    (hfaithful : natives.Faithful) : m.Sound := by
  obtain ⟨p, hp, rfl⟩ := of_load hload
  have hprogram : m.program = p := hm.program
  constructor
  case loaded => exact hprogram ▸ Program.loaded_of_load hp
  case faithful =>
    have hnatives : p.natives = natives := Program.natives_of_load hp
    rw [hprogram, hnatives]
    exact hfaithful
  case fits => exact hm.fits fun y d hd => by cases hd

/-- What is known of a task that has a chain of its own. -/
lemma Stands.fixed {slots : Array Value} {k : Nat} (h : m.Stands a x slots (.launched y k))
    (hfit : m.Fits) : (k = 1 → ∃ t c, m.chain? y = some c ∧ Begun t a c) ∧
      (k ≤ 1 → m.store.slots a.frame = slots) ∧ (1 ≤ k → m.Guards y a) := by
  cases h with
  | held hholder _ _ hs =>
    cases hholder with
    | ready =>
      exact ⟨fun he => (by cases he), fun _ => hs, fun he => (by cases he)⟩
  | begun hy hb _ hs ho => exact ⟨fun _ => ⟨_, _, hy, hb⟩, fun _ => hs, fun _ => ho.guards hfit⟩
  | later ho =>
    refine ⟨fun he => ?_, fun he => ?_, fun _ => ho.guards hfit⟩
    · exact absurd he (by omega)
    · exact absurd he (by omega)

/-- What a spawned task is called with is what the receiver and the arguments of the node were when
the node was performed. A native is invoked with them. In the frame of a declared function they are
in the slots that the function declares for them, if these are all different, and all other slots
are nil, until the task performs its first node; from then on, only the task writes to the frame,
and activations whose frames link to it. -/
theorem arguments_fixed {graph : Graph} {natives : Registry} {config : Config} {kept : Bool}
    (hblind : natives.Blind) (hfaithful : natives.Faithful)
    (hload : load graph natives config kept = .ok loaded) (hm : loaded.Attains m)
    (hc : m.chain? x = some c) (hs : c.stage = .walk) (hw : c.walks = ⟨b, some id, depth⟩ :: rest)
    (hn : m.program.node id = .ok n) (hk : n.kind = .spawn)
    (hspawn : (m.step (.run x)).chain? x = some { c with stage := .spawn callee }) :
    ∃ receiver args,
      (∃ name, callee = .native name (receiver.toList ++ args) ∧
        m.program.Resolves m.store b.frame id (.native name) receiver args ∧
        ∀ m' y, Unfolds x callee (m.step (.run x)) (.launched y 0) m' →
          m'.Invokes y name (receiver.toList ++ args)) ∨
      ∃ decl env d a, callee = .declared a ∧ a = ⟨m.store.nextFrame, decl, d.entry, d.results⟩ ∧
        m.program.Resolves m.store b.frame id (.func decl env) receiver args ∧
        m.program.definition decl = .ok d ∧
        ∀ m' y k, Unfolds x callee (m.step (.run x)) (.launched y k) m' →
          (k = 1 → ∃ t e, m'.chain? y = some e ∧ Begun t a e) ∧
          (k ≤ 1 → (d.receiver.toList ++ d.params).Nodup →
            d.Lays receiver args (m'.store.slots a.frame).toList) ∧
          (1 ≤ k → m'.Guards y a) := by
  have hkept := (kept_of_load hblind hload).attains hm
  obtain ⟨s, hbind, hstep⟩ := of_spawn hc hs hw hn hk hspawn
  rw [Program.bindCall_eq, Op.look_bind_apply] at hbind
  cases hb : m.program.bindingOf b.frame id "go" m.store with
  | error e =>
    rw [hb] at hbind
    cases hbind
  | ok binding =>
    rw [hb] at hbind
    dsimp only at hbind
    have hbinds := Program.binds_bindingOf hb
    cases binding with
    | native name given =>
      cases hbind
      obtain ⟨receiver, args, hresolves, rfl⟩ := hbinds
      exact ⟨receiver, args, .inl ⟨name, rfl, hresolves, fun m' y h => h.invokes hspawn rfl⟩⟩
    | declared decl parent receiver args =>
      obtain ⟨n', env, hresolves, -, -⟩ := hbinds
      obtain ⟨d, hd, rfl, slots, hslots, hlays⟩ := Program.of_activate hbind
      have hg : m.store.nextFrame ≠ globalFrame := by
        intro he
        have hanchored := hkept.grounded.store.anchored
        rw [← he] at hanchored
        exact Nat.lt_irrefl _ hanchored
      have hstands := stands_of_spawn hkept.grounded hkept.loaded hc hw hb hbind hstep
      have hsound := (hm.sound hload hfaithful).step (.run x)
      have hcontent : (m.step (.run x)).store.slots m.store.nextFrame = slots := by
        rw [hstep, hslots]
        show Store.slots (m.store.withFrame slots parent) m.store.nextFrame = slots
        rw [Store.slots, Store.frame_withFrame, if_pos rfl]
      refine ⟨receiver, args, .inr ⟨decl, env, d, _, rfl, rfl, hresolves, hd, fun m' y k h => ?_⟩⟩
      obtain ⟨hbegun, hkeeps, hguards⟩ := (h.stands hsound hg hstands).fixed (h.sound hsound).fits
      refine ⟨hbegun, fun hk hnodup => ?_, hguards⟩
      rw [hkeeps hk, hcontent]
      exact hlays hnodup

/-- A variable is passed to a task, and is set to something else after that. -/
def noting : Graph where
  globals := 1
  nodes := #[
    { kind := .funcDecl,
      payload := some (.definition
        { name := "note", frameSize := 2, params := [0], entry := some ⟨1⟩ }) },
    { kind := .nop },
    { kind := .assign, children := [⟨3⟩, ⟨4⟩], next := some ⟨5⟩ },
    { kind := .ident, slot := some 0 },
    { kind := .basicLit, payload := some (.literal (.int 7)) },
    { kind := .spawn, children := [⟨6⟩, ⟨3⟩], next := some ⟨7⟩ },
    { kind := .ident, payload := some (.func ⟨0⟩) },
    { kind := .assign, children := [⟨3⟩, ⟨8⟩] },
    { kind := .basicLit, payload := some (.literal (.int 8)) }]

/-- The call that the task is to begin. -/
def notingCallee : Callee := .declared ⟨⟨1⟩, ⟨0⟩, some ⟨1⟩, 0⟩

theorem arguments_fixed_noting : ∃ loaded m, load noting .empty {} true = .ok loaded ∧
    loaded.Attains m ∧
    (∀ m' y, Unfolds ⟨0⟩ notingCallee (m.step (.run ⟨0⟩)) (.launched y 1) m' →
      (m'.store.slots ⟨1⟩).toList = [.int 7, .nil]) ∧
    ∃ m', Unfolds ⟨0⟩ notingCallee (m.step (.run ⟨0⟩)) (.launched ⟨1⟩ 1) m' ∧
      m'.store.slot? globalFrame 0 = some (.int 8) := by
  obtain ⟨loaded, hload⟩ : ∃ loaded, load noting .empty {} true = .ok loaded := ⟨_, rfl⟩
  have hwithin : Within loaded.store.size (Chain.atNode ⟨2⟩) := by
    cases hload
    rintro T k (⟨w, hw, rfl, rfl⟩ | hk)
    · rw [List.mem_singleton.mp hw]
      exact Nat.zero_lt_one
    · exact hk.elim
  have hm := ((Attains.host .start (.atNode ⟨2⟩) hwithin).move (.run ⟨0⟩)).move (.run ⟨0⟩)
  refine ⟨loaded, _, hload, hm, ?_, ?_⟩
  · cases hload
    intro m' y h
    obtain ⟨receiver, args, ⟨name, hname, -⟩ | ⟨decl, env, d, a, ha, rfl, hresolves, hd, hfixed⟩⟩ :=
      @arguments_fixed _ _ ⟨0⟩
        { walks := [⟨⟨globalFrame, ⟨2⟩, some ⟨2⟩, 0⟩, some ⟨5⟩, 0⟩], stage := .walk }
        _ _ _ _ _ notingCallee noting .empty {} true (fun _ he => absurd he List.not_mem_nil)
        (fun _ he => absurd he List.not_mem_nil) rfl hm rfl rfl rfl rfl rfl rfl
    · cases hname
    · obtain ⟨hv, rfl, rfl⟩ := hresolves.unique
        (⟨_, _, _, rfl, rfl, rfl, rfl, rfl, rfl⟩ : Program.Resolves _ _ _ _
          (.func ⟨0⟩ none) none [.int 7])
      cases hv
      cases hd
      have hlays : FuncDef.Lays { name := "note", frameSize := 2, params := [0], entry := some ⟨1⟩ }
          none [.int 7] (m'.store.slots ⟨1⟩).toList :=
        (hfixed m' y 1 h).2.1 (Nat.le_refl 1) (by decide)
      refine List.ext_getElem? fun i => ?_
      rcases i with _ | _ | i
      · exact hlays.arguments 0 0 rfl
      · exact hlays.others 1 (by decide) (fun he => by cases he) (by decide)
      · exact List.getElem?_eq_none (hlays.size ▸ Nat.le_add_left 2 i)
  · cases hload
    exact ⟨_, (((((Unfolds.start.move (.run ⟨0⟩)).move (.run ⟨0⟩)).move (.run ⟨0⟩)).move
      (.run ⟨0⟩)).move
      (.run ⟨0⟩)).move (.run ⟨1⟩), rfl⟩

end Machine

end Flowgraph
