import Mathlib.Tactic.Common
import Flowgraph.Proofs.Scope.Advance

/-!
# Lexical addressing is sound

When a layout suits a program, then whatever happens, in whichever order, all frames are as
their scopes say, every activation works in a frame of its own scope, and no chain is aborted at
an address.
-/

namespace Flowgraph

namespace Layout

variable {L : Layout} {σ σ' : Scopes} {m : Machine} {c c' : Chain}

/-! ### Machines in their scopes -/

/-- Everything in a machine is as the scopes of its frames say. -/
structure Rules (L : Layout) (σ : Scopes) (m : Machine) : Prop where
  describes : L.Describes m.program σ m.store
  carries : ∀ x c, m.chain? x = some c → L.Carries m.program σ c
  faults : ∀ e ∈ m.launcher.faults, Stop.Sane (.fault e.2)

lemma Rules.offers (h : L.Rules σ m) {v : Value} (hv : m.Offers v) : L.Knows σ v := by
  rcases hv with ⟨ch, hv⟩ | ⟨x, c, ch, phase, hc, hs⟩
  · exact h.describes.holds.buffer ch v hv
  · have hstage := (h.carries x c hc).stage
    rwa [hs] at hstage

/-- What a protocol makes of a chain has nothing at hand that was not known before. -/
lemma Rules.restaged (h : L.Rules σ m) {x : ChainId} (hc : m.chain? x = some c)
    (hr : m.Restaged c c') : L.Carries m.program σ c' := by
  have hcarries := h.carries x c hc
  have hstage := hcarries.stage
  cases hr with
  | sending next hs =>
    rw [hs] at hstage
    exact hcarries.restage hstage
  | refused hs => exact carries_exit rfl
  | sent hs => exact hcarries.proceed
  | receiving next hs =>
    rw [hs] at hstage
    exact hcarries.restage hstage
  | received hs hv =>
    rw [hs] at hstage
    exact hcarries.restage ⟨hstage, fun w hw => h.offers (hv w hw)⟩
  | asleep hs => exact hcarries.restage trivial
  | awake hs => exact hcarries.proceed
  | reserved hs =>
    rw [hs] at hstage
    exact hcarries.restage hstage
  | launched hs | denied hs | withdrawn hs => exact hcarries.restage trivial
  | enlisted hs => exact hcarries.proceed
  | joining hs => exact hcarries.restage trivial
  | joined hs => exact carries_exit fun v hv => absurd hv List.not_mem_nil
  | leaving hs =>
    rw [hs] at hstage
    exact hcarries.restage hstage
  | ended hs =>
    rw [hs] at hstage
    exact hcarries.restage hstage

lemma Rules.proceeds {m' : Machine} {mv : Move} (h : L.Rules σ m) (hp : m.Proceeds mv m') :
    L.Rules σ m' := by
  constructor
  · rw [hp.program]
    rcases hp.store with hs | ⟨ch, v, hv, hs⟩ | ⟨ch, hs⟩
    · rw [hs]
      exact h.describes
    · rw [hs]
      exact h.describes.of_frames rfl (h.describes.holds.pushValue ch (h.offers hv))
    · rw [hs]
      exact h.describes.of_frames rfl (h.describes.holds.popValue ch)
  · intro x c' hx
    rw [hp.program]
    rcases hp.chains x c' hx with hx | ⟨c, hc, hr⟩ | ⟨y, c, task, callee, -, hc, hs, -, rfl⟩
    · exact h.carries x c' hx
    · exact h.restaged hc hr
    · have hstage := (h.carries y c hc).stage
      rw [hs] at hstage
      exact ⟨fun w hw => absurd hw List.not_mem_nil, hstage⟩
  · intro e he
    rcases hp.faults e he with he | ⟨y, c, stop, hc, hs, hf⟩
    · exact h.faults e he
    · have hstage : stop.Sane := by
        have hstage := (h.carries y c hc).stage
        rwa [hs] at hstage
      cases stop with
      | fault f =>
        cases hf
        exact hstage
      | panic text =>
        rw [← Option.some.inj hf]
        exact rfl
      | endless => cases hf

/-- Every move leaves everything as the scopes say, with more of them if frames were made. -/
lemma Rules.step (hL : L.Suits m.program) (hp : m.program.Loaded)
    (hr : m.program.natives.Faithful) (hfit : m.Fits) (h : L.Rules σ m) (mv : Move) :
    ∃ σ', σ.Extends σ' ∧ L.Rules σ' (m.step mv) := by
  rcases m.step_cases mv with hm | ⟨id, c, step, -, hc, hs, hm⟩
  · exact ⟨σ, .refl σ, h.proceeds hm⟩
  · have hprogram := m.program_step mv
    have hup := upholds_advance hL hp hr h.describes.top (h.carries id c hc) (hfit id c hc) hs
      m.store h.describes
    -- The scopes of old frames stay, so what the other chains have at hand is still known.
    have hrules : ∀ σ' s' d, σ.Extends σ' → L.Describes m.program σ' s' →
        L.Carries m.program σ' d → m.step mv = { m with store := s' }.setChain id d →
        L.Rules σ' (m.step mv) := by
      intro σ' s' d hσ hs' hd he
      rw [he]
      refine ⟨hs', fun x c' hx => ?_, h.faults⟩
      rcases Machine.of_chain?_setChain hx with hx | ⟨-, rfl⟩
      · exact (h.carries x c' hx).mono hσ
      · exact hd
    cases hx : step m.store with
    | ok d s' =>
      rw [hx] at hup
      obtain ⟨σ', hσ, hs', hd⟩ := hup
      refine ⟨σ', hσ, hrules σ' s' d hσ hs' hd ?_⟩
      rw [hm, Machine.stepChain, hx]
      rfl
    | error e s' =>
      rw [hx] at hup
      obtain ⟨σ', hσ, hs', he⟩ := hup
      refine ⟨σ', hσ, hrules σ' s' _ hσ hs' (((h.carries id c hc).mono hσ).stopChain he) ?_⟩
      rw [hm, Machine.stepChain, hx]
      rfl

/-! ### What a host may do -/

/-- A value that a host can come by: no function, a top-level function, or one that is held in the
store or was a result of an earlier chain. -/
inductive Obtains (L : Layout) (m : Machine) : Value → Prop
  | plain {v : Value} (h : ∀ decl env, v ≠ .func decl env) : L.Obtains m v
  | function {decl : NodeId} (h : L.parent decl = none) : L.Obtains m (.func decl none)
  | held {v : Value} {i : Item} (h : v ∈ m.store.contents i) : L.Obtains m v
  | result {v : Value} {x : ChainId} {c : Chain} {vs : List Value} (hc : m.chain? x = some c)
    (hs : c.stage = .ended (.ok vs)) (h : v ∈ vs) : L.Obtains m v

/-- What a host may begin: a walk from a node of the global scope, and whatever needs only values
that the host can come by. -/
inductive Admits (L : Layout) (m : Machine) : Chain → Prop
  | atNode {entry : NodeId} (h : L.scope entry = none) : L.Admits m (.atNode entry)
  | ofCall {callee : Value} {receiver : Option Value} {args : List Value}
    (hc : L.Obtains m callee) (hr : ∀ v, receiver = some v → L.Obtains m v)
    (ha : ∀ v ∈ args, L.Obtains m v) : L.Admits m (.ofCall callee receiver args)
  | ofSend {ch : ChannelId} {v : Value} (hv : L.Obtains m v) : L.Admits m (.ofSend ch v)
  | ofReceive {ch : ChannelId} : L.Admits m (.ofReceive ch)
  | ofJoin : L.Admits m .ofJoin

lemma Rules.obtains (h : L.Rules σ m) {v : Value} (hv : L.Obtains m v) : L.Knows σ v := by
  cases hv with
  | plain hv => exact knows_plain hv
  | function hd => exact hd
  | held hv => exact Store.holds_iff.mp h.describes.holds _ v hv
  | result hc hs hv =>
    have hstage := (h.carries _ _ hc).stage
    rw [hs] at hstage
    exact hstage v hv

lemma Admits.hosted (h : L.Admits m c) : c.Hosted := by
  cases h <;> constructor

lemma Rules.admits (h : L.Rules σ m) (hc : L.Admits m c) : L.Carries m.program σ c := by
  cases hc with
  | atNode hentry =>
    refine ⟨fun w hw => ?_, trivial⟩
    rw [List.mem_singleton.mp hw]
    exact ⟨none, h.describes.top, .inl rfl, fun id hid => Option.some.inj hid ▸ hentry,
      Nat.zero_le _⟩
  | ofCall hf hr ha =>
    refine ⟨fun w hw => absurd hw List.not_mem_nil, h.obtains hf, fun v hv => ?_, fun v hv => ?_⟩
    · exact h.obtains (hr v hv)
    · exact h.obtains (ha v hv)
  | ofSend hv => exact ⟨fun w hw => absurd hw List.not_mem_nil, h.obtains hv⟩
  | ofReceive => exact ⟨fun w hw => absurd hw List.not_mem_nil, trivial⟩
  | ofJoin => exact ⟨fun w hw => absurd hw List.not_mem_nil, trivial⟩

lemma Rules.addChain (h : L.Rules σ m) (hc : L.Carries m.program σ c) :
    L.Rules σ (m.addChain c).2 := by
  refine ⟨h.describes, fun x d hd => ?_, h.faults⟩
  simp only [Machine.addChain, Machine.chain?, Array.getElem?_push] at hd
  split_ifs at hd
  · cases hd
    exact hc
  · exact h.carries x d hd

/-! ### Soundness -/

/-- At the beginning there is the global frame, and nothing is in it. -/
lemma rules_ofProgram (L : Layout) (p : Program) (kept : Bool) :
    L.Rules #[none] (Machine.ofProgram p kept) := by
  have hscope : ∀ f S, Scopes.of? #[none] f = some S → f = globalFrame ∧ S = none := by
    intro f S hf
    obtain ⟨hlt, hS⟩ := Array.getElem?_eq_some_iff.mp hf
    have hzero : f.index = 0 := Nat.lt_one_iff.mp hlt
    constructor
    · cases f
      exact congrArg FrameId.mk hzero
    · simp only [hzero] at hS
      exact hS.symm
  refine ⟨⟨rfl, rfl, ?_, ?_, ?_⟩, fun x c hx => ?_, fun e he => absurd he List.not_mem_nil⟩
  · intro f S hf
    obtain ⟨rfl, rfl⟩ := hscope f S hf
    exact Array.size_replicate
  · intro f decl hf
    cases (hscope f _ hf).2
  · exact Machine.holds_ofProgram trivial p kept
  · simp [Machine.ofProgram, Machine.chain?] at hx

/-- Frames belong to scopes as a layout wants it. -/
structure Sound (L : Layout) (σ : Scopes) (m : Machine) : Prop where
  /-- Every frame belongs to a scope, the first one to the global scope. -/
  frames : σ.size = m.store.frames.size
  top : σ.of? globalFrame = some none
  /-- From a frame of a scope, the frames further out are those of the scopes further out, and all
  are as large as their scopes ask for. -/
  ancestor : ∀ f S l T, σ.of? f = some S → L.enclosing S l = some T →
    ∃ g, m.store.ancestor? f l = some g ∧ σ.of? g = some T ∧
      m.store.frameSize g = m.program.scopeSize T
  /-- Functions are top-level functions, or closures over frames of the scopes that they lie in,
  wherever they are held. -/
  held : ∀ i v, v ∈ m.store.contents i → L.Knows σ v
  /-- Every activation is in a frame of the scope that it goes through. -/
  walks : ∀ x c w, m.chain? x = some c → w ∈ c.walks → L.Treads m.program σ w
  /-- The same goes for the functions that chains have at hand. -/
  stages : ∀ x c, m.chain? x = some c → L.Stages m.program σ c.stage
  /-- No chain comes to its end at an address, and no such fault is recorded. -/
  outcomes : ∀ x c e, m.chain? x = some c →
    c.stage = .exit (.error e) ∨ c.stage = .leave (.error e) ∨ c.stage = .ended (.error e) →
      e.Sane
  faults : ∀ e ∈ m.launcher.faults, Stop.Sane (.fault e.2)

lemma Rules.sound (h : L.Rules σ m) : L.Sound σ m where
  frames := h.describes.count
  top := h.describes.top
  ancestor f S l T hf hT := by
    obtain ⟨g, hg, hgT⟩ := h.describes.ancestor hf hT
    exact ⟨g, hg, hgT, h.describes.size g T hgT⟩
  held := Store.holds_iff.mp h.describes.holds
  walks x c w hc hw := (h.carries x c hc).walks w hw
  stages x c hc := (h.carries x c hc).stage
  outcomes x c e hc hs := by
    have hstage := (h.carries x c hc).stage
    rcases hs with hs | hs | hs <;> rwa [hs] at hstage
  faults := h.faults

/-- When a layout suits a program, then whatever the host begins and in whichever order moves are
made, frames belong to scopes as the layout wants it. -/
theorem sound_of_reachable {L : Layout} {graph : Graph} {natives : Registry} {config : Config}
    {kept : Bool} {start m : Machine}
    (hload : Machine.load graph natives config kept = .ok start) (hL : L.Suits start.program)
    (hn : natives.Faithful) (hm : Machine.Reachable L.Admits start m) :
    ∃ σ, L.Sound σ m := by
  obtain ⟨p, hp, rfl⟩ := Machine.of_load hload
  have hloaded := Program.loaded_of_load hp
  have hinv : m.program = p ∧ m.Fits ∧ ∃ σ, L.Rules σ m := by
    induction hm with
    | start => exact ⟨rfl, fun x c hx => by simp [Machine.ofProgram, Machine.chain?] at hx,
        _, rules_ofProgram L p kept⟩
    | move mv _ ih =>
      obtain ⟨hprogram, hfit, σ, hσ⟩ := ih
      refine ⟨by rw [Machine.program_step, hprogram], hfit.step mv, ?_⟩
      obtain ⟨σ', -, hσ'⟩ := hσ.step (hprogram ▸ hL) (hprogram ▸ hloaded)
        (by rw [hprogram, Program.natives_of_load hp]; exact hn) hfit mv
      exact ⟨σ', hσ'⟩
    | host _ hc ih =>
      obtain ⟨hprogram, hfit, σ, hσ⟩ := ih
      exact ⟨hprogram, hfit.addChain (Machine.fits_hosted hc.hosted),
        σ, hσ.addChain (hσ.admits hc)⟩
  obtain ⟨-, -, σ, hσ⟩ := hinv
  exact ⟨σ, hσ.sound⟩

/-- Two calls in the global scope: the first makes a closure over its frame, which adds one to the
argument of that call when the second calls it. -/
def adder : Graph where
  globals := 2
  nodes := #[
    { kind := .funcDecl,
      payload := some (.definition
        { name := "next", frameSize := 1, results := 1, entry := some ⟨3⟩ }) },
    { kind := .funcLit, slot := some 0, payload := some (.func ⟨0⟩) },
    { kind := .funcDecl,
      payload := some (.definition
        { name := "adder", frameSize := 2, params := [1], results := 1, entry := some ⟨1⟩ }) },
    { kind := .inc, children := [⟨4⟩], slot := some 0 },
    { kind := .ident, slot := some 1, level := 1 },
    { kind := .basicLit, payload := some (.literal (.int 5)) },
    { kind := .call, children := [⟨2⟩, ⟨5⟩], slot := some 0, next := some ⟨7⟩ },
    { kind := .call, children := [⟨8⟩], slot := some 1 },
    { kind := .ident, slot := some 0 }]

/-- The closure lies in the scope of the function that makes it. -/
def adderLayout : Layout where
  scope id :=
    match id.index with
    | 0 | 1 => some ⟨2⟩
    | 3 | 4 => some ⟨0⟩
    | _ => none
  parent decl := if decl.index = 0 then some ⟨2⟩ else none

theorem sound_adder : ∃ start, Machine.load adder .probing {} true = .ok start ∧
    adderLayout.Suits start.program ∧ Registry.probing.Faithful ∧
    ∃ σ, adderLayout.Sound σ
      ((List.replicate 40 (Move.run ⟨0⟩)).foldl Machine.step
        (start.addChain (.atNode ⟨6⟩)).2) := by
  refine ⟨_, rfl, by decide, faithful_probing, ?_⟩
  refine @sound_of_reachable adderLayout adder .probing {} true _ _ rfl (by decide)
    faithful_probing (.moves _ (.host .start ?_))
  exact .atNode rfl

end Layout

end Flowgraph
