import Mathlib.Tactic.Common
import Flowgraph.Proofs.Writes.Places

/-!
# Chains in later frames

A chain that was begun by a call works in frames that were created after the call began, and so
does whatever it calls or spawns. Below its walks may lie others, which are suspended until the
call returns.
-/

namespace Flowgraph

variable {p : Program} {s : Store} {N : Nat} {base : List Walk} {c c' : Chain}

/-- A callee whose frame, if it has one, is not among the first `N`. -/
def Callee.Beyond (N : Nat) : Callee → Prop
  | .declared a => N ≤ a.frame.index
  | .native _ _ => True

/-- A stage that starts, now or later, only callees in later frames. -/
def Stage.Beyond (N : Nat) : Stage → Prop
  | .start _ callee | .spawn callee | .launch _ callee => callee.Beyond N
  | _ => True

/-- The stages between a walk and a walk that it calls. -/
def Stage.isCalling : Stage → Bool
  | .call _ _ _ | .start _ _ | .deliver _ | .lost => true
  | _ => false

/-- Above some walks, a chain works only in later frames. -/
structure Chain.Beyond (N : Nat) (base : List Walk) (c : Chain) : Prop where
  walks : ∃ ws, c.walks = ws ++ base ∧ (∀ w ∈ ws, N ≤ w.activation.frame.index) ∧
    (ws = [] → base = [] ∨ c.stage.isCalling = true)
  stage : c.stage.Beyond N

/-- A chain works only in later frames, above some walks or after it has come to its end. -/
def Chain.Later (N : Nat) (base : List Walk) (c : Chain) : Prop :=
  c.Beyond N base ∨ c.Beyond N []

/-! ### Operations -/

namespace Op

variable {α : Type} {P : α → Prop}

/-- What changes only slots creates frames and loses none. -/
lemma Keeps.of_only {A : Store → FrameId → Nat → Prop} {x : Op α}
    (h : ∀ s, Store.Only (A s) s (x.after s))
    (hP : Keeps (fun _ => True) (fun _ => True) x P) :
    Keeps (fun s => N ≤ s.frames.size) (fun _ => True) x P := by
  intro s hs
  have hsize := (h s).size
  have hx := hP s trivial
  rw [Op.after] at hsize
  cases hr : x s with
  | ok a s' =>
    rw [hr] at hsize hx
    exact ⟨Nat.le_trans hs hsize, hx.2⟩
  | error e s' =>
    rw [hr] at hsize
    exact ⟨Nat.le_trans hs hsize, trivial⟩

end Op

namespace Program

lemma beyond_activate (decl : NodeId) (parent : FrameId) (receiver : Option Value)
    (args : List Value) :
    Op.Keeps (fun s => N ≤ s.frames.size) (fun _ => True)
      (p.activate decl parent receiver args) (Callee.Beyond N) := by
  intro s hs
  have hsize := (p.only_activate (s := s) (fun _ _ => True) decl parent receiver args).size
  have h := p.activates decl parent receiver args s
  rw [Op.after] at hsize
  cases hr : p.activate decl parent receiver args s with
  | ok callee s' =>
    rw [hr] at h hsize
    obtain ⟨d, -, -, rfl⟩ := h
    exact ⟨Nat.le_trans hs hsize, hs⟩
  | error e s' =>
    rw [hr] at hsize
    exact ⟨Nat.le_trans hs hsize, trivial⟩

lemma beyond_bindCall (f : FrameId) (id : NodeId) (op : String) :
    Op.Keeps (fun s => N ≤ s.frames.size) (fun _ => True) (p.bindCall f id op)
      (Callee.Beyond N) := by
  rw [bindCall_eq]
  refine .bind (.look (Look.gives_any _)) fun binding _ => ?_
  cases binding with
  | declared decl parent receiver args => exact beyond_activate decl parent receiver args
  | native name args => exact .pure trivial

lemma beyond_bindValues (callee : Value) (receiver : Option Value) (args : List Value) :
    Op.Keeps (fun s => N ≤ s.frames.size) (fun _ => True) (p.bindValues callee receiver args)
      (Callee.Beyond N) := by
  cases callee with
  | func decl env => exact beyond_activate decl _ receiver args
  | native name => exact .pure trivial
  | _ => exact .throw trivial

end Program

/-! ### Chains -/

namespace Chain

lemma beyond_of_walks (hw : c.walks = []) (hs : c.stage.Beyond N) : c.Beyond N [] :=
  ⟨⟨[], hw, fun _ hw => absurd hw List.not_mem_nil, fun _ => .inl rfl⟩, hs⟩

lemma later_exit (outcome : Outcome) : (c.exit outcome).Later N base :=
  .inr (beyond_of_walks rfl trivial)

/-- The same walks in another stage. -/
lemma Beyond.restage (h : c.Beyond N base) (hc : c.stage.isCalling = false) {stage : Stage}
    (hs : stage.Beyond N) : ({ c with stage := stage } : Chain).Beyond N base := by
  obtain ⟨ws, hws, hframes, hempty⟩ := h.walks
  refine ⟨⟨ws, hws, hframes, fun he => ?_⟩, hs⟩
  rcases hempty he with hb | hb
  · exact .inl hb
  · simp [hc] at hb

/-- The same walks in a stage between them. -/
lemma Beyond.between (h : c.Beyond N base) {stage : Stage} (hc : stage.isCalling = true)
    (hs : stage.Beyond N) : ({ c with stage := stage } : Chain).Beyond N base := by
  obtain ⟨ws, hws, hframes, -⟩ := h.walks
  exact ⟨⟨ws, hws, hframes, fun _ => .inr hc⟩, hs⟩

/-- All walks are from before. -/
lemma beyond_self (c : Chain) {stage : Stage} (hc : stage.isCalling = true)
    (hs : stage.Beyond N) : ({ c with stage := stage } : Chain).Beyond N c.walks :=
  ⟨⟨[], rfl, fun _ hw => absurd hw List.not_mem_nil, fun _ => .inr hc⟩, hs⟩

lemma Beyond.proceed (h : c.Beyond N base) (hc : c.stage.isCalling = false) :
    c.proceed.Later N base := by
  simp only [Chain.proceed]
  split_ifs
  · exact later_exit _
  · exact .inl (h.restage hc trivial)

lemma Beyond.stopChain (h : c.Beyond N base) (e : Stop) :
    (Machine.stopChain c e).Later N base := by
  cases e with
  | endless => exact .inl (h.between rfl trivial)
  | fault f => exact later_exit _
  | panic text => exact later_exit _

/-- Outside of calls, the topmost walk is in a later frame. -/
lemma Beyond.topmost (h : c.Beyond N base) (hc : c.stage.isCalling = false) {w : Walk}
    {rest : List Walk} (hw : c.walks = w :: rest) :
    N ≤ w.activation.frame.index ∧ ∃ ws, rest = ws ++ base ∧
      ∀ w ∈ ws, N ≤ w.activation.frame.index := by
  obtain ⟨ws, hws, hframes, hempty⟩ := h.walks
  cases ws with
  | nil =>
    rcases hempty rfl with rfl | hb
    · simp [hw] at hws
    · simp [hc] at hb
  | cons w' ws =>
    rw [hw] at hws
    cases hws
    exact ⟨hframes _ List.mem_cons_self, ws, rfl, fun w hw => hframes w (List.mem_cons_of_mem _ hw)⟩

/-- Whatever protocols make of a chain, it works in later frames. -/
lemma Beyond.restaged {m : Machine} (h : c.Beyond N base) (hr : m.Restaged c c') :
    c'.Later N base := by
  cases hr with
  | refused hs => exact later_exit _
  | joined hs => exact later_exit _
  | sent hs => exact h.proceed (by rw [hs]; rfl)
  | awake hs => exact h.proceed (by rw [hs]; rfl)
  | enlisted hs => exact h.proceed (by rw [hs]; rfl)
  | reserved hs =>
    have hstage := h.stage
    rw [hs] at hstage
    exact .inl (h.restage (by rw [hs]; rfl) hstage)
  | sending next hs => exact .inl (h.restage (by rw [hs]; rfl) trivial)
  | receiving next hs => exact .inl (h.restage (by rw [hs]; rfl) trivial)
  | received hs hv => exact .inl (h.restage (by rw [hs]; rfl) trivial)
  | asleep hs => exact .inl (h.restage (by rw [hs]; rfl) trivial)
  | launched hs => exact .inl (h.restage (by rw [hs]; rfl) trivial)
  | denied hs => exact .inl (h.restage (by rw [hs]; rfl) trivial)
  | withdrawn hs => exact .inl (h.restage (by rw [hs]; rfl) trivial)
  | joining hs => exact .inl (h.restage (by rw [hs]; rfl) trivial)
  | leaving hs => exact .inl (h.restage (by rw [hs]; rfl) trivial)
  | ended hs => exact .inl (h.restage (by rw [hs]; rfl) trivial)

/-! ### Steps of a chain by itself -/

/-- What an operation leaves to be done starts only callees in later frames. -/
lemma beyond_perform (f : FrameId) (id : NodeId) (depth : Nat) :
    Op.Keeps (fun s => N ≤ s.frames.size) (fun _ => True) (p.perform f id)
      fun pending => (stageAfter depth pending).Beyond N := by
  refine .bind (.lift (ends_any _)) fun n hn => ?_
  by_cases hcall : n.kind = .call
  · rw [hcall]
    exact .bind (Program.beyond_bindCall f id "call") fun callee hcallee => .pure hcallee
  · by_cases hspawn : n.kind = .spawn
    · rw [hspawn]
      exact .bind (Program.beyond_bindCall f id "go") fun callee hcallee => .pure hcallee
    · have hsize : ∀ s, Store.Only (p.Place s f n) s ((p.operation f id n.kind).after s) :=
        fun s => (((Program.regime_spares hn).keeps_operation hcall hspawn fun _ =>
          Program.settable_spares _ s).after (.refl _ s)).only
      refine (Op.Keeps.of_only hsize (Program.fits_operation n.kind)).mono fun pending hfit => ?_
      cases pending with
      | call callee => exact absurd hfit hcall
      | spawn callee => exact absurd hfit hspawn
      | _ => exact trivial

lemma later_walk (h : c.Beyond N base) (hs : c.stage = .walk) :
    Op.Keeps (fun s => N ≤ s.frames.size) (fun _ => True) (c.walk p) (Later N base) := by
  simp only [Chain.walk]
  split
  case h_1 => exact .pure (later_exit _)
  case h_2 w rest hw =>
    obtain ⟨hframe, ws, rfl, hframes⟩ := h.topmost (by rw [hs]; rfl) hw
    split
    · refine .bind (.look (Look.gives_any _)) fun vs _ => .pure (.inl ?_)
      exact ⟨⟨ws, rfl, hframes, fun _ => .inr rfl⟩, trivial⟩
    · refine .bind (beyond_perform _ _ w.depth) fun pending hp => .pure (.inl ?_)
      exact h.restage (by rw [hs]; rfl) hp

lemma later_follow (h : c.Beyond N base) (hs : c.stage = .follow) :
    Op.Keeps (fun s => N ≤ s.frames.size) (fun _ => True) (c.follow p) (Later N base) := by
  simp only [Chain.follow]
  split
  case h_1 a id depth rest hw =>
    obtain ⟨hframe, ws, rfl, hframes⟩ := h.topmost (by rw [hs]; rfl) hw
    refine .bind (.look (Look.gives_any _)) fun next _ => .pure (.inl ?_)
    refine ⟨⟨⟨a, next, depth⟩ :: ws, rfl, ?_, fun he => by cases he⟩, trivial⟩
    intro w hw
    rcases List.mem_cons.mp hw with rfl | hw
    · exact hframe
    · exact hframes w hw
  case h_2 => exact .pure (.inl (h.restage (by rw [hs]; rfl) trivial))

lemma later_start (h : c.Beyond N base) (depth : Nat) {callee : Callee}
    (hcallee : callee.Beyond N) :
    Op.Keeps (fun s => N ≤ s.frames.size) (fun _ => True) (c.start p depth callee)
      (Later N base) := by
  cases callee with
  | declared a =>
    have henter : (c.enter a depth).Beyond N base := by
      obtain ⟨ws, hws, hframes, -⟩ := h.walks
      refine ⟨⟨⟨a, a.entry, depth⟩ :: ws, ?_, ?_, fun he => by cases he⟩, trivial⟩
      · rw [Chain.enter, hws]
        rfl
      · intro w hw
        rcases List.mem_cons.mp hw with rfl | hw
        · exact hcallee
        · exact hframes w hw
    simp only [Chain.start]
    split
    · exact .ite (fun _ => .throw trivial) fun _ => .pure (.inl henter)
    · exact .pure (.inl henter)
  | native name args =>
    simp only [Chain.start]
    split
    case h_1 symbol hsymbol =>
      refine .get fun t _ => ?_
      cases symbol.run p.config t args with
      | results vs => exact .pure (.inl (h.between rfl trivial))
      | print line vs =>
        refine .bind (.modify fun _ hs => hs) fun _ _ => ?_
        exact .pure (.inl (h.between rfl trivial))
      | stop e => exact .throw trivial
      | call f args => exact .pure (.inl (h.between rfl trivial))
    case h_2 => exact .throw trivial

/-- Results that are not those of the call itself are taken by a walk in a later frame. -/
lemma later_deliver (h : c.Beyond N base) {vs : List Value}
    (hbase : base = [] ∨ c.walks ≠ base) :
    Op.Keeps (fun s => N ≤ s.frames.size) (fun _ => True) (c.deliver p vs) (Later N base) := by
  obtain ⟨ws, hws, hframes, -⟩ := h.walks
  have hempty : ws = [] → base = [] := by
    rintro rfl
    exact hbase.resolve_right fun hne => hne hws
  have hfollow : ({ c with stage := .follow } : Chain).Beyond N base :=
    ⟨⟨ws, hws, hframes, fun he => .inl (hempty he)⟩, trivial⟩
  simp only [Chain.deliver]
  split
  case h_1 a id depth rest hw =>
    refine .bind (P := fun _ => True) ?_ fun _ _ => .pure (.inl hfollow)
    exact Op.Keeps.of_only (fun s => p.only_storeResults a.frame id vs) (Op.keeps_any _)
  case h_2 => exact .pure (later_exit _)

lemma later_received (h : c.Beyond N base) (hfit : c.Fits p) {purpose : Purpose}
    {v : Option Value} (hs : c.stage = .received purpose v) :
    Op.Keeps (fun s => N ≤ s.frames.size) (fun _ => True) (c.received p purpose v)
      (Later N base) := by
  apply Op.Keeps.of_only (fun s => only_received hfit hs)
  have hfollow : ({ c with stage := .follow } : Chain).Beyond N base :=
    h.restage (by rw [hs]; rfl) trivial
  simp only [Chain.received]
  split
  · cases purpose with
    | result => exact .bind (Op.keeps_any _) fun _ _ => .pure (.inl hfollow)
    | visit next => exact .bind (Op.keeps_any _) fun _ _ => .pure (.inl hfollow)
  · exact .pure (later_exit _)

/-- As long as the call has not returned, a chain goes on in later frames. -/
theorem later_advance (h : c.Beyond N base) (hfit : c.Fits p)
    (hbase : ∀ vs, c.stage = .deliver vs → base = [] ∨ c.walks ≠ base) {step : Op Chain}
    (hs : c.advance p = some step) :
    Op.Keeps (fun s => N ≤ s.frames.size) (fun _ => True) step (Later N base) := by
  simp only [Chain.advance] at hs
  split at hs
  case h_1 hstage => cases hs; exact later_walk h hstage
  case h_2 hstage => cases hs; exact later_follow h hstage
  case h_3 callee receiver args hstage =>
    cases hs
    refine .bind (Program.beyond_bindValues callee receiver args) fun bound hbound => ?_
    exact .pure (.inl (h.between rfl hbound))
  case h_4 depth callee hstage =>
    cases hs
    have hcallee := h.stage
    rw [hstage] at hcallee
    exact later_start h depth hcallee
  case h_5 vs hstage => cases hs; exact later_deliver h (hbase vs hstage)
  case h_6 hstage => cases hs; exact later_received h hfit hstage
  case h_7 => cases hs; exact .throw trivial
  case h_8 => cases hs

/-- A node that calls hands on a callee in a later frame. -/
lemma later_call {w : Walk} {rest : List Walk} (hw : c.walks = w :: rest) (hcall : w.At p .call) :
    Op.Keeps (fun s => N ≤ s.frames.size) (fun _ => True) (c.walk p) (Later N c.walks) := by
  obtain ⟨id, n, hid, hn, hk⟩ := hcall
  simp only [Chain.walk]
  rw [hw]
  simp only [hid]
  refine .bind (P := fun pending => ∃ callee, pending = .call callee ∧ callee.Beyond N) ?_ ?_
  · simp only [Program.perform]
    rw [hn]
    refine .bind (P := (· = n)) (.lift rfl) fun m hm => ?_
    rw [hm, hk]
    exact .bind (Program.beyond_bindCall _ id "call") fun callee hcallee =>
      .pure ⟨callee, rfl, hcallee⟩
  · rintro pending ⟨callee, rfl, hcallee⟩
    have hstart : (Stage.start (w.depth + 1) callee).Beyond N := hcallee
    have hself := c.beyond_self rfl hstart
    rw [hw] at hself
    exact .pure (.inl hself)

lemma later_stopChain_self (c : Chain) (e : Stop) : (Machine.stopChain c e).Later N c.walks := by
  cases e with
  | endless => exact .inl (c.beyond_self rfl trivial)
  | fault f => exact later_exit _
  | panic text => exact later_exit _

end Chain

end Flowgraph
