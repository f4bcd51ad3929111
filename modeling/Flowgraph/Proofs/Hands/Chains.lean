import Mathlib.Tactic.Common
import Flowgraph.Proofs.Locality
import Flowgraph.Proofs.Stages
import Flowgraph.Proofs.Upkeep.Operation

/-!
# What chains have at hand

A chain has values at hand, and activations that it is in or is about to begin. What is known of all
of them stays known in every step, as long as operations make no others. What operations do is asked
for here, for all programs and for all that could be known.
-/

namespace Flowgraph

variable {V : Value → Prop} {W : Activation → Option NodeId → Prop} {B : Activation → Prop}
  {I : Store → Prop} {p : Program} {s : Store}

/-- From a store, a computation leads to stores with `I`, and to results with `P`. -/
def Op.Leads {α : Type} (s : Store) (I : Store → Prop) (x : Op α) (P : α → Prop) : Prop :=
  match x s with
  | .ok a s' => I s' ∧ P a
  | .error _ s' => I s'

namespace Op

variable {α β : Type} {P : α → Prop} {x : Op α}

lemma Keeps.leads {E : Stop → Prop} (h : Keeps I E x P) (hs : I s) : Leads s I x P := by
  have hx := h s hs
  rw [Leads]
  cases hr : x s with
  | ok a s' =>
    rw [hr] at hx
    exact hx
  | error e s' =>
    rw [hr] at hx
    exact hx.1

lemma Leads.mono {J : Store → Prop} {Q : α → Prop} (h : Leads s I x P) (hI : ∀ t, I t → J t)
    (hP : ∀ a, P a → Q a) : Leads s J x Q := by
  rw [Leads] at h ⊢
  cases hr : x s with
  | ok a s' =>
    rw [hr] at h
    exact ⟨hI s' h.1, hP a h.2⟩
  | error e s' =>
    rw [hr] at h
    exact hI s' h

/-- What the store of a machine is like when a chain has made a step by itself. -/
lemma Leads.stepChain {m : Machine} {x : ChainId} {c : Chain} {step : Op Chain} {P : Chain → Prop}
    (h : Leads m.store I step P) : I (m.stepChain x c step).store := by
  rw [Machine.stepChain_eq]
  rw [Leads] at h
  cases hr : step m.store with
  | ok d s =>
    rw [hr] at h
    exact h.1
  | error e s =>
    rw [hr] at h
    exact h

lemma Leads.pure {a : α} (hs : I s) (ha : P a) : Leads s I (Pure.pure a) P := ⟨hs, ha⟩

lemma Leads.throw {e : Stop} (hs : I s) : Leads s I (MonadExcept.throw e : Op α) P := hs

/-- What only uses a result leads to the same stores. -/
lemma Leads.bind_pure {f : α → β} {Q : β → Prop} (h : Leads s I x P) (hf : ∀ a, P a → Q (f a)) :
    Leads s I (x >>= fun a => Pure.pure (f a)) Q := by
  rw [Leads] at h
  rw [Leads, bind_apply]
  cases hr : x s with
  | ok a s' =>
    rw [hr] at h
    exact ⟨h.1, hf a h.2⟩
  | error e s' =>
    rw [hr] at h
    exact h

/-- A look comes first, and changes nothing. -/
lemma Leads.look_bind {E : Stop → Prop} {look : Look α} {next : α → Op β} {Q : β → Prop}
    (h : Ends E P (look s)) (hs : I s) (hn : ∀ a, P a → Leads s I (next a) Q) :
    Leads s I (liftM look >>= next : Op β) Q := by
  rw [Leads, look_bind_apply]
  cases hr : look s with
  | ok a =>
    rw [hr] at h
    exact hn a h
  | error e => exact hs

lemma Leads.lift_bind {E : Stop → Prop} {result : Except Stop α} {next : α → Op β} {Q : β → Prop}
    (h : Ends E P result) (hs : I s) (hn : ∀ a, P a → Leads s I (next a) Q) :
    Leads s I (liftM result >>= next : Op β) Q := by
  cases result with
  | ok a => exact hn a h
  | error e => exact hs

end Op

/-! ### At hand -/

/-- A bound call gets only values with `V`, and what it begins has `B`. -/
def Callee.Bears (V : Value → Prop) (B : Activation → Prop) : Callee → Prop
  | .declared a => B a
  | .native _ args => ∀ v ∈ args, V v

/-- All values that a stage has at hand have `V`, and what it is about to begin has `B`. -/
def Stage.Bears (V : Value → Prop) (B : Activation → Prop) : Stage → Prop
  | .call callee receiver args =>
    V callee ∧ (∀ v, receiver = some v → V v) ∧ ∀ v ∈ args, V v
  | .start _ callee | .spawn callee | .launch _ callee => callee.Bears V B
  | .deliver vs => ∀ v ∈ vs, V v
  | .send _ v _ => V v
  | .receive _ purpose _ => purpose.Holds V
  | .received purpose v => purpose.Holds V ∧ ∀ w, v = some w → V w
  | .exit (.ok vs) | .leave (.ok vs) | .ended (.ok vs) => ∀ v ∈ vs, V v
  | _ => True

lemma Stage.Bears.mono {V' : Value → Prop} {stage : Stage} (h : stage.Bears V B)
    (hV : ∀ v, V v → V' v) : stage.Bears V' B := by
  have hcallee : ∀ callee : Callee, callee.Bears V B → callee.Bears V' B := by
    intro callee hc
    cases callee with
    | declared a => exact hc
    | native name args => exact fun v hv => hV v (hc v hv)
  have hpurpose : ∀ purpose : Purpose, purpose.Holds V → purpose.Holds V' := by
    intro purpose hp
    cases purpose with
    | result => exact trivial
    | visit next => exact hV next hp
  cases stage with
  | call callee receiver args =>
    exact ⟨hV _ h.1, fun v hv => hV v (h.2.1 v hv), fun v hv => hV v (h.2.2 v hv)⟩
  | start depth callee | spawn callee | launch t callee => exact hcallee callee h
  | deliver vs => exact fun v hv => hV v (h v hv)
  | send ch v phase => exact hV v h
  | receive ch purpose phase => exact hpurpose purpose h
  | received purpose v => exact ⟨hpurpose purpose h.1, fun w hw => hV w (h.2 w hw)⟩
  | exit outcome | leave outcome | ended outcome =>
    cases outcome with
    | ok vs => exact fun v hv => hV v (h v hv)
    | error e => exact trivial
  | _ => exact trivial

/-- All values that a chain has at hand have `V`, its walks have `W`, and what it is about to begin
has `B`. -/
structure Chain.Bears (V : Value → Prop) (W : Activation → Option NodeId → Prop)
    (B : Activation → Prop) (c : Chain) : Prop where
  walks : ∀ w ∈ c.walks, W w.activation w.node
  stage : c.stage.Bears V B

/-- All values that a native hands on have `V`. -/
def Reply.Bears (V : Value → Prop) : Reply → Prop
  | results vs => ∀ v ∈ vs, V v
  | print _ vs => ∀ v ∈ vs, V v
  | stop _ => True
  | call f vs => V f ∧ ∀ v ∈ vs, V v

/-- What a program makes of what it is given: from a store, all that chains do by themselves leads
to stores with `I`, and hands on no other values and no other activations. -/
structure Program.Hands (p : Program) (s : Store) (I : Store → Prop) (V : Value → Prop)
    (W : Activation → Option NodeId → Prop) (B : Activation → Prop) : Prop where
  same : I s
  enter : ∀ a, B a → W a a.entry
  print : ∀ line, I (s.writeLine line)
  perform : ∀ a id, W a (some id) → Op.Leads s I (p.perform a.frame id) fun pending =>
    ∀ depth, (Chain.stageAfter depth pending).Bears V B
  bind : ∀ callee receiver args, V callee → (∀ v, receiver = some v → V v) → (∀ v ∈ args, V v) →
    Op.Leads s I (p.bindValues callee receiver args) (Callee.Bears V B)
  results : ∀ a, W a none → Ends (fun _ => True) (fun vs => ∀ v ∈ vs, V v) (Program.results a s)
  successor : ∀ a id, W a (some id) → Ends (fun _ => True) (W a) (p.successor a.frame id s)
  storeResults : ∀ a id vs, W a (some id) → (∀ v ∈ vs, V v) →
    Op.Leads s I (p.storeResults a.frame id vs) fun _ => True
  storeReceived : ∀ a id n v, W a (some id) → p.node id = .ok n → n.kind = .receive →
    (∀ w, v = some w → V w) → Op.Leads s I (p.storeReceived a.frame id v) fun _ => True
  visitReceived : ∀ a id n next v, W a (some id) → p.node id = .ok n → n.kind = .range → V next →
    (∀ w, v = some w → V w) → Op.Leads s I (p.visitReceived a.frame id next v) fun _ => True
  reply : ∀ name symbol args, p.natives.symbol? name = some symbol → (∀ v ∈ args, V v) →
    (symbol.run p.config s args).Bears V

namespace Chain

variable {c d : Chain} {step : Op Chain}

lemma bears_exit {vs : List Value} (h : ∀ v ∈ vs, V v) : (c.exit (.ok vs)).Bears V W B :=
  ⟨fun _ hw => absurd hw List.not_mem_nil, h⟩

lemma bears_abort (e : Stop) : (c.exit (.error e)).Bears V W B :=
  ⟨fun _ hw => absurd hw List.not_mem_nil, trivial⟩

namespace Bears

lemma restage (h : c.Bears V W B) {stage : Stage} (hs : stage.Bears V B) :
    ({ c with stage := stage } : Chain).Bears V W B := ⟨h.walks, hs⟩

lemma proceed (h : c.Bears V W B) : c.proceed.Bears V W B := by
  simp only [Chain.proceed]
  split_ifs
  · exact bears_exit fun v hv => absurd hv List.not_mem_nil
  · exact h.restage trivial

lemma stopChain (h : c.Bears V W B) (e : Stop) : (Machine.stopChain c e).Bears V W B := by
  cases e with
  | endless => exact h.restage trivial
  | fault f => exact bears_abort _
  | panic text => exact bears_abort _

lemma enter (h : c.Bears V W B) {a : Activation} (ha : W a a.entry) (depth : Nat) :
    (c.enter a depth).Bears V W B := by
  refine ⟨fun w hw => ?_, trivial⟩
  rcases List.mem_cons.mp hw with rfl | hw
  · exact ha
  · exact h.walks w hw

/-! ### Steps of a chain by itself -/

section Steps

variable (H : p.Hands s I V W B) (h : c.Bears V W B)

include H h

lemma leads_walk : Op.Leads s I (c.walk p) (Chain.Bears V W B) := by
  simp only [walk]
  split
  case h_1 => exact .pure H.same (bears_exit fun v hv => absurd hv List.not_mem_nil)
  case h_2 w rest hw =>
    have hwalk := h.walks w (hw ▸ List.mem_cons_self)
    split
    case h_1 hnode =>
      refine .look_bind (H.results w.activation (hnode ▸ hwalk)) H.same fun vs hvs => ?_
      refine .pure H.same ⟨fun w' hw' => ?_, hvs⟩
      exact h.walks w' (hw ▸ List.mem_cons_of_mem _ hw')
    case h_2 id hnode =>
      refine (H.perform w.activation id (hnode ▸ hwalk)).bind_pure fun pending hp => ?_
      exact h.restage (hp w.depth)

lemma leads_follow : Op.Leads s I (c.follow p) (Chain.Bears V W B) := by
  simp only [follow]
  split
  case h_1 a id depth rest hw =>
    have hwalk : W a (some id) := h.walks ⟨a, some id, depth⟩ (hw ▸ List.mem_cons_self)
    refine .look_bind (H.successor a id hwalk) H.same fun next hnext => ?_
    refine .pure H.same ⟨fun w hw' => ?_, trivial⟩
    rcases List.mem_cons.mp hw' with rfl | hw'
    · exact hnext
    · exact h.walks w (hw ▸ List.mem_cons_of_mem _ hw')
  case h_2 => exact .pure H.same (h.restage trivial)

lemma leads_start {callee : Callee} (hc : callee.Bears V B) (depth : Nat) :
    Op.Leads s I (c.start p depth callee) (Chain.Bears V W B) := by
  cases callee with
  | declared a =>
    simp only [start]
    split
    · split_ifs
      · exact .throw H.same
      · exact .pure H.same (h.enter (H.enter a hc) depth)
    · exact .pure H.same (h.enter (H.enter a hc) depth)
  | native name args =>
    simp only [start]
    split
    case h_1 symbol hname =>
      have hreply := H.reply name symbol args hname hc
      rw [Op.Leads, Op.bind_apply, Op.get_apply]
      dsimp only
      cases hr : symbol.run p.config s args with
      | results vs =>
        rw [hr] at hreply
        exact ⟨H.same, h.restage hreply⟩
      | print line vs =>
        rw [hr] at hreply
        exact ⟨H.print line, h.restage hreply⟩
      | stop e => exact H.same
      | call f vs =>
        rw [hr] at hreply
        exact ⟨H.same, h.restage ⟨hreply.1, fun v hv => (by cases hv), hreply.2⟩⟩
    case h_2 => exact .throw H.same

lemma leads_deliver {vs : List Value} (hv : ∀ v ∈ vs, V v) :
    Op.Leads s I (c.deliver p vs) (Chain.Bears V W B) := by
  simp only [deliver]
  split
  case h_1 a id depth rest hw =>
    have hwalk : W a (some id) := h.walks ⟨a, some id, depth⟩ (hw ▸ List.mem_cons_self)
    exact (H.storeResults a id vs hwalk hv).bind_pure fun _ _ => h.restage trivial
  case h_2 => exact .pure H.same (bears_exit hv)

lemma leads_received (hfit : c.Fits p) {purpose : Purpose} {v : Option Value}
    (hs : c.stage = .received purpose v) :
    Op.Leads s I (c.received p purpose v) (Chain.Bears V W B) := by
  have hstage : purpose.Holds V ∧ ∀ w, v = some w → V w := by
    have hstage := h.stage
    rwa [hs] at hstage
  simp only [received]
  split
  case h_1 a id depth rest hw =>
    have hwalk : W a (some id) := h.walks ⟨a, some id, depth⟩ (hw ▸ List.mem_cons_self)
    obtain ⟨id', n, hid, hn, hk⟩ := hfit.stage purpose.kind _ (by rw [hs]; rfl) (by rw [hw]; rfl)
    cases hid
    cases purpose with
    | result =>
      exact (H.storeReceived a id n v hwalk hn hk hstage.2).bind_pure fun _ _ => h.restage trivial
    | visit next =>
      exact (H.visitReceived a id n next v hwalk hn hk hstage.1 hstage.2).bind_pure fun _ _ =>
        h.restage trivial
  case h_2 =>
    exact .pure H.same (bears_exit fun w hw => hstage.2 w (Option.mem_toList.mp hw))

/-- By itself, a chain comes by nothing else. -/
theorem leads_advance (hfit : c.Fits p) (ha : c.advance p = some step) :
    Op.Leads s I step (Chain.Bears V W B) := by
  have hstage := h.stage
  simp only [advance] at ha
  split at ha <;> cases ha
  case h_1 => exact h.leads_walk H
  case h_2 => exact h.leads_follow H
  case h_3 callee receiver args hs =>
    rw [hs] at hstage
    obtain ⟨hcallee, hreceiver, hargs⟩ := hstage
    exact (H.bind callee receiver args hcallee hreceiver hargs).bind_pure fun _ hb => h.restage hb
  case h_4 depth callee hs =>
    rw [hs] at hstage
    exact h.leads_start H hstage depth
  case h_5 vs hs =>
    rw [hs] at hstage
    exact h.leads_deliver H hstage
  case h_6 purpose v hs => exact h.leads_received H hfit hs
  case h_7 => exact .throw H.same

end Steps

/-! ### Moves -/

variable {m : Machine} {x : ChainId} {mv : Move}

/-- What a protocol makes of a chain has nothing at hand that was not there before. -/
lemma restaged (h : c.Bears V W B) (hoffers : ∀ v, m.Offers v → V v) (hr : m.Restaged c d) :
    d.Bears V W B := by
  have hstage := h.stage
  cases hr with
  | sending next hs | receiving next hs | reserved hs =>
    rw [hs] at hstage
    exact h.restage hstage
  | refused hs => exact bears_abort _
  | sent hs | awake hs | enlisted hs => exact h.proceed
  | received hs hv =>
    rw [hs] at hstage
    exact h.restage ⟨hstage, fun w hw => hoffers w (hv w hw)⟩
  | asleep hs | launched hs | denied hs | withdrawn hs | joining hs => exact h.restage trivial
  | joined hs => exact bears_exit fun v hv => absurd hv List.not_mem_nil
  | @leaving outcome hs | @ended outcome hs =>
    rw [hs] at hstage
    refine h.restage ?_
    cases outcome with
    | ok vs => exact hstage
    | error e => exact trivial

/-- A move makes nothing else of a chain. -/
theorem of_next (h : c.Bears V W B) (H : m.program.Hands m.store I V W B)
    (hoffers : ∀ v, m.Offers v → V v) (hfit : c.Fits m.program) (hc : m.chain? x = some c)
    (hd : (m.step mv).chain? x = some d) : d.Bears V W B := by
  cases Machine.next_of_step hc hd with
  | same => exact h
  | restaged hr => exact h.restaged hoffers hr
  | advanced _ ha hr =>
    have hleads := h.leads_advance H hfit ha
    rw [Op.Leads, hr] at hleads
    exact hleads.2
  | stopped => exact h.stopChain _

end Bears

end Chain

/-- What a move makes of the store: what a chain does to it by itself, or a value that passes
through a channel. -/
theorem Machine.store_step_of_hands {m : Machine} {mv : Move} (H : m.program.Hands m.store I V W B)
    (hpush : ∀ ch v, m.Offers v → I (m.store.pushValue ch v)) (hpop : ∀ ch, I (m.store.popValue ch))
    (hfit : m.Fits) (h : ∀ x c, mv = .run x → m.chain? x = some c →
      ∀ step, c.advance m.program = some step → c.Bears V W B) : I (m.step mv).store := by
  rcases m.step_cases mv with hm | ⟨x, c, step, hmv, hc, ha, hm⟩
  · rcases hm.store with hs | ⟨ch, v, hv, hs⟩ | ⟨ch, hs⟩ <;> rw [hs]
    · exact H.same
    · exact hpush ch v hv
    · exact hpop ch
  · have hleads := (h x c hmv hc step ha).leads_advance H (hfit x c hc) ha
    exact hm ▸ hleads.stepChain

end Flowgraph
