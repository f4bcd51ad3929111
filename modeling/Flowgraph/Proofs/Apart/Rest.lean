import Flowgraph.Proofs.Apart.Closed
import Flowgraph.Proofs.Tasks.Joinable
import Flowgraph.Proofs.Scope.Layout

/-!
# Machines at rest

Whatever a host has done with a machine, when all chains have ended the machine is at rest: nothing
mentions a name that has not been given out, only tasks are to be joined, and the numbers of tasks
are in use for what was launched.
-/

namespace Flowgraph

open Named Store

/-- A machine at rest: its program has been loaded, and no chain is at work. -/
structure Machine.Rests (m : Machine) : Prop where
  loaded : m.program.Loaded
  blind : m.program.natives.Blind
  closed : m.store.Closed
  grants : m.program.config.Grants
  idle : m.Idle
  listed : m.Listed
  numbered : ∀ x c t, m.chain? x = some c → c.task = some t → t.index < m.launcher.started
  recorded : ∀ r ∈ m.launcher.faults, r.1.index < m.launcher.started

/-- In an array with a change at one place, there is what has been there before, and what has been
made of it. -/
lemma mem_or_of_mem_modify {α : Type} {xs : Array α} {i : Nat} {f : α → α} {a : α}
    (h : a ∈ xs.modify i f) : a ∈ xs ∨ ∃ b ∈ xs, f b = a := by
  obtain ⟨j, hj⟩ := Array.mem_iff_getElem?.mp h
  rw [Array.getElem?_modify] at hj
  split_ifs at hj
  · obtain ⟨b, hb, rfl⟩ := Option.map_eq_some_iff.mp hj
    exact .inr ⟨b, Array.mem_of_getElem? hb, rfl⟩
  · exact .inl (Array.mem_of_getElem? hj)

namespace Store

variable {s : Store}

lemma sizes_updateChannel (ch : ChannelId) (f : Channel → Channel) (T : Table) :
    (s.updateChannel ch f).size T = s.size T := by
  cases T with
  | channels => exact Array.size_modify
  | _ => rfl

/-- A channel may come to hold what has been given a name. -/
lemma Closed.updateChannel (h : s.Closed) (ch : ChannelId) {f : Channel → Channel}
    (hf : ∀ channel, Within s.size channel → Within s.size (f channel)) :
    (s.updateChannel ch f).Closed := by
  have hsize : (s.updateChannel ch f).size = s.size := funext (sizes_updateChannel ch f)
  constructor
  case anchored => exact h.anchored
  case frames => exact hsize ▸ h.frames
  case blocks => exact hsize ▸ h.blocks
  case dicts => exact hsize ▸ h.dicts
  case channels =>
    rw [hsize]
    have hold : ∀ channel ∈ s.channels, Within s.size channel := fun channel hc T k hk =>
      h.channels T k ⟨channel, hc, hk⟩
    rintro T k ⟨channel, hmem, hk⟩
    obtain hc | ⟨old, ho, rfl⟩ := mem_or_of_mem_modify hmem
    · exact hold channel hc T k hk
    · exact hf old (hold old ho) T k hk

end Store

/-- A chain that begins at a node mentions only the frame of the globals. -/
lemma within_atNode {n : Table → Nat} (h : globalFrame.index < n .frames) (entry : NodeId) :
    Within n (Chain.atNode entry) := by
  rintro T k (⟨w, hw, rfl, rfl⟩ | hk)
  · rw [List.mem_singleton.mp hw]
    exact h
  · exact hk.elim

namespace Machine

variable {m m' start : Machine} {x : ChainId} {c d : Chain} {mv : Move} {s : Store}

/-- When a chain makes a step by itself, the chain and the store become what is next for them. -/
lemma next_of_advances (h : m.Advances mv (m.step mv)) :
    ∃ x c d s, m.chain? x = some c ∧ c.next m.program m.store = some (d, s) ∧
      m.step mv = (m.mapStore fun _ => s).setChain x d := by
  obtain ⟨x, c, step, -, hc, ha, hm⟩ := h
  have hnext := Chain.next_of_advance (s := m.store) ha
  rw [hm, stepChain_eq]
  cases hr : step m.store with
  | ok d s => exact ⟨x, c, d, s, hc, by rw [hnext, hr], rfl⟩
  | error e s => exact ⟨x, c, _, s, hc, by rw [hnext, hr], rfl⟩

/-! ### Names that have been given out -/

/-- Neither the store nor a chain mentions names that have not been given out. -/
structure Grounded (m : Machine) : Prop where
  store : m.store.Closed
  chains : ∀ x c, m.chain? x = some c → Within m.store.size c

namespace Grounded

/-- A chain that ends without results mentions no names. -/
lemma within_exit {n : Table → Nat} {o : Outcome} (h : ∀ vs, o = .ok vs → vs = []) :
    Within n (c.exit o) := by
  rintro T k (⟨_, hw, -⟩ | ⟨vs, hvs, v, hv, -⟩)
  · cases hw
  · rw [h vs hvs] at hv
    cases hv

lemma within_proceed {n : Table → Nat} (h : Within n c) : Within n c.proceed := by
  rw [Chain.proceed]
  split_ifs
  · exact within_exit fun vs hvs => (Except.ok.inj hvs).symm
  · exact fun T k hk => h T k (.inl (hk.resolve_right id))

variable (h : m.Grounded)

include h

lemma offers {v : Value} (hv : m.Offers v) : Within m.store.size v := by
  intro T k hk
  rcases hv with ⟨ch, hv⟩ | ⟨x, c, ch, phase, hc, hs⟩
  · simp only [Store.channel] at hv
    cases hch : m.store.channels[ch.index]? with
    | none =>
      rw [hch] at hv
      cases hv
    | some channel =>
      rw [hch] at hv
      exact h.store.channels T k ⟨channel, Array.mem_of_getElem? hch, v, hv, hk⟩
  · refine h.chains x c hc T k (.inr ?_)
    rw [hs]
    exact .inr hk

/-- Protocols pass on what is there. -/
lemma restaged (hc : m.chain? x = some c) (hr : m.Restaged c d) : Within m.store.size d := by
  have hchain := h.chains x c hc
  have hstage : ∀ stage : Stage, Within m.store.size stage →
      Within m.store.size { c with stage := stage } := fun stage hs T k hk =>
    hk.elim (fun hw => hchain T k (.inl hw)) (hs T k)
  have hold : Within m.store.size c.stage := fun T k hk => hchain T k (.inr hk)
  cases hr with
  | sending _ hs | receiving _ hs | reserved hs | leaving hs | ended hs =>
    rw [hs] at hold
    exact hstage _ hold
  | refused => exact within_exit fun vs hvs => by cases hvs
  | joined => exact within_exit fun vs hvs => (Except.ok.inj hvs).symm
  | sent | awake | enlisted => exact within_proceed hchain
  | received hs hv =>
    rw [hs] at hold
    refine hstage _ fun T k hk => ?_
    rcases hk with hk | ⟨w, hw, hk⟩
    · exact hold T k (.inr hk)
    · exact h.offers (hv w hw) T k hk
  | asleep | launched | denied | withdrawn | joining => exact hstage _ fun T k hk => hk.elim

omit h in
lemma size_proceeds (hm : m.Proceeds mv m') (T : Table) : m'.store.size T = m.store.size T := by
  rcases hm.store with hs | ⟨ch, v, -, hs⟩ | ⟨ch, hs⟩
  · rw [hs]
  · rw [hs, Store.pushValue, sizes_updateChannel]
  · rw [hs, Store.popValue, sizes_updateChannel]

lemma store_proceeds (hm : m.Proceeds mv m') : m'.store.Closed := by
  rcases hm.store with hs | ⟨ch, v, hv, hs⟩ | ⟨ch, hs⟩
  · exact hs ▸ h.store
  · rw [hs]
    refine h.store.updateChannel ch fun channel hc T k ⟨w, hw, hk⟩ => ?_
    rcases List.mem_append.mp hw with hw | hw
    · exact hc T k ⟨w, hw, hk⟩
    · rw [List.mem_singleton.mp hw] at hk
      exact h.offers hv T k hk
  · rw [hs]
    exact h.store.updateChannel ch fun channel hc T k ⟨w, hw, hk⟩ =>
      hc T k ⟨w, List.mem_of_mem_tail hw, hk⟩

/-- Whatever moves, no names come up but those that are given out. -/
theorem step (hp : m.program.Loaded) (hn : m.program.natives.Blind) (mv : Move) :
    (m.step mv).Grounded := by
  rcases m.step_cases mv with hm | hm
  · constructor
    case store => exact h.store_proceeds hm
    case chains =>
      intro x d hd
      refine Within.mono (n := m.store.size) ?_ fun T => Nat.le_of_eq (size_proceeds hm T).symm
      rcases hm.chains x d hd with hd | ⟨c, hc, hr⟩ | ⟨y, c, t, callee, -, hc, hs, -, rfl⟩
      · exact h.chains x d hd
      · exact h.restaged hc hr
      · have hchain := h.chains y c hc
        intro T k hk
        refine hchain T k (.inr ?_)
        rw [hs]
        exact hk.resolve_left fun ⟨_, hw, _⟩ => by cases hw
  · obtain ⟨id, c, d, s, hc, hnext, hstep⟩ := next_of_advances hm
    obtain ⟨hgrows, hclosed, hwithin⟩ := Chain.closed_next hp hn hnext h.store (h.chains id c hc)
    rw [hstep]
    constructor
    case store => exact hclosed
    case chains =>
      intro x e he
      rcases of_chain?_setChain he with he | ⟨-, rfl⟩
      · exact (h.chains x e he).mono hgrows
      · exact hwithin

end Grounded

/-! ### What a host can come to -/

/-- What a machine can become while a host uses it: besides moves, the host begins chains, changes
the store and takes the recorded faults, and nothing that it brings mentions names that have not
been given out. -/
inductive Attains (start : Machine) : Machine → Prop
  | start : Attains start start
  | move {m : Machine} (h : Attains start m) (mv : Move) : Attains start (m.step mv)
  | host {m : Machine} (h : Attains start m) {c : Chain} (hc : c.Hosted)
    (hw : Within m.store.size c) : Attains start (m.addChain c).2
  | change {m : Machine} (h : Attains start m) {s : Store} (hs : m.store.Grows s)
    (hc : m.store.Closed → s.Closed) : Attains start { m with store := s }
  | takeFaults {m : Machine} (h : Attains start m) : Attains start m.takeFaults.2

lemma Attains.program (h : start.Attains m) : m.program = start.program := by
  induction h with
  | start => rfl
  | move _ mv ih => rw [program_step, ih]
  | host _ _ _ ih | change _ _ _ ih | takeFaults _ ih => exact ih

lemma Attains.fits (h : start.Attains m) (hstart : start.Fits) : m.Fits := by
  induction h with
  | start => exact hstart
  | move _ mv ih => exact ih.step mv
  | host _ hc _ ih => exact ih.addChain (fits_hosted hc)
  | change _ _ _ ih | takeFaults _ ih => exact ih

/-- What holds of whatever a host can come to. -/
structure Kept (m : Machine) : Prop where
  loaded : m.program.Loaded
  blind : m.program.natives.Blind
  grounded : m.Grounded
  listed : m.Listed
  accounted : ∃ taken, m.Accounted 0 0 taken

lemma kept_of_load {graph : Graph} {natives : Registry} {config : Config} {kept : Bool}
    (hblind : natives.Blind) (h : load graph natives config kept = .ok m) : m.Kept := by
  obtain ⟨p, hp, rfl⟩ := Machine.of_load h
  have hnone : ∀ x c, (ofProgram p kept).chain? x ≠ some c := fun x c hc => by cases hc
  constructor
  case loaded => exact Program.loaded_of_load hp
  case blind =>
    have hnatives : p.natives = natives := Program.natives_of_load hp
    exact hnatives ▸ hblind
  case grounded =>
    refine ⟨?_, fun x c hc => absurd hc (hnone x c)⟩
    constructor
    case anchored => exact Nat.zero_lt_one
    case frames =>
      rintro T k ⟨f, hf, hk⟩
      rw [List.mem_singleton.mp (Array.mem_toList_iff.mpr hf)] at hk
      rcases hk with ⟨v, hv, hk⟩ | ⟨_, hparent, _⟩
      · rw [Array.eq_of_mem_replicate hv] at hk
        exact hk.elim
      · cases hparent
    all_goals
      rintro T k ⟨_, hmem, -⟩
      cases Array.mem_toList_iff.mpr hmem
  case listed =>
    rintro y (hy | ⟨x, c, hc, -⟩)
    · cases hy
    · exact absurd hc (hnone x c)
  case accounted =>
    exact ⟨[], accounted_of_ended (fun x c hc => absurd hc (hnone x c))
      fun r hr => absurd hr List.not_mem_nil⟩

lemma Kept.attains (h : start.Kept) (hm : start.Attains m) : m.Kept := by
  induction hm with
  | start => exact h
  | move _ mv ih =>
    obtain ⟨taken, haccounted⟩ := ih.accounted
    exact ⟨by rw [program_step]; exact ih.loaded, by rw [program_step]; exact ih.blind,
      ih.grounded.step ih.loaded ih.blind mv, ih.listed.step mv, taken, haccounted.step mv⟩
  | host _ hc hw ih =>
    obtain ⟨taken, haccounted⟩ := ih.accounted
    refine ⟨ih.loaded, ih.blind, ⟨ih.grounded.store, fun x d hd => ?_⟩, ih.listed.addChain hc,
      taken, haccounted.addChain hc⟩
    rw [chain?_addChain_eq] at hd
    split_ifs at hd
    · cases hd
      exact hw
    · exact ih.grounded.chains x d hd
  | change _ hs hc ih =>
    obtain ⟨taken, haccounted⟩ := ih.accounted
    exact ⟨ih.loaded, ih.blind,
      ⟨hc ih.grounded.store, fun x d hd => (ih.grounded.chains x d hd).mono hs⟩,
      ih.listed, taken, ⟨haccounted.size, haccounted.enough, haccounted.before, haccounted.numbered,
        haccounted.unique, haccounted.apart, haccounted.recorded, haccounted.known⟩⟩
  | takeFaults _ ih =>
    obtain ⟨taken, haccounted⟩ := ih.accounted
    exact ⟨ih.loaded, ih.blind, ⟨ih.grounded.store, ih.grounded.chains⟩, ih.listed, _,
      haccounted.takeFaults⟩

/-- When no chain is at work and threads are not refused, a machine is at rest. -/
lemma Kept.rests (h : m.Kept) (hgrants : m.program.config.Grants) (hidle : m.Idle) : m.Rests := by
  obtain ⟨taken, haccounted⟩ := h.accounted
  have hnumbered : ∀ x c t, m.chain? x = some c → c.task = some t → t.index < m.launcher.started :=
    fun x c t hc ht => (haccounted.numbered x c t ⟨Nat.zero_le _, hc⟩ (.inl ht)).2
  constructor
  case loaded => exact h.loaded
  case blind => exact h.blind
  case closed => exact h.grounded.store
  case grants => exact hgrants
  case idle => exact hidle
  case listed => exact h.listed
  case numbered => exact hnumbered
  case recorded =>
    intro r hr
    rcases haccounted.known r (.inr hr) with hlt | ⟨x, c, hc, ht⟩
    · exact absurd hlt (Nat.not_lt_zero _)
    · exact hnumbered x c r.1 hc.2 ht

/-- Whatever a host has done with a machine, when no chain is at work the machine is at rest. -/
theorem rests_of_attains {graph : Graph} {natives : Registry} {config : Config} {kept : Bool}
    (hblind : natives.Blind) (hgrants : config.Grants)
    (h : load graph natives config kept = .ok start) (hm : start.Attains m) (hidle : m.Idle) :
    m.Rests := by
  refine ((kept_of_load hblind h).attains hm).rests ?_ hidle
  obtain ⟨p, hp, rfl⟩ := Machine.of_load h
  have hconfig : p.config = config := Program.config_of_load hp
  rw [hm.program]
  exact hconfig ▸ hgrants

end Machine

end Flowgraph
