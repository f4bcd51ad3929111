import Mathlib.Tactic.Common
import Flowgraph.Machine.Host

/-!
# What one move can do

A move is either a step of a chain by itself, which `Chain.advance` describes, or part of a
protocol: of the exchange over channels, of the account of tasks, or of sleeping. Protocols
change no frame and no block. They restage chains and pass values on, and `Restaged` lists what
they can make of a chain.
-/

namespace Flowgraph

namespace Machine

variable {m : Machine} {id x : ChainId} {c c' : Chain}

/-! ### Chains of changed machines -/

lemma of_chain?_setChain (h : (m.setChain id c).chain? x = some c') :
    m.chain? x = some c' ∨ x = id ∧ c' = c := by
  simp only [setChain, chain?, Array.getElem?_setIfInBounds] at h
  split_ifs at h with hx hlt
  · cases h
    cases x
    cases id
    exact .inr ⟨by simpa using hx.symm, rfl⟩
  · exact .inl h

lemma chain?_setChain_of_ne (h : x ≠ id) : (m.setChain id c).chain? x = m.chain? x := by
  have hne : id.index ≠ x.index := fun he => h (by cases x; cases id; simp_all)
  simp only [setChain, chain?, Array.getElem?_setIfInBounds, if_neg hne]

lemma chain?_setChain_self (h : m.chain? id = some c) :
    (m.setChain id c').chain? id = some c' := by
  have hlt : id.index < m.chains.size := (Array.getElem?_eq_some_iff.mp h).1
  simp only [setChain, chain?, Array.getElem?_setIfInBounds, if_pos hlt, if_true]

lemma chain?_addChain_eq (m : Machine) (c : Chain) (x : ChainId) : (m.addChain c).2.chain? x =
    if x.index = m.chains.size then some c else m.chain? x := by
  simp only [addChain, chain?, Array.getElem?_push]

@[simp] lemma program_setChain : (m.setChain id c).program = m.program := rfl

@[simp] lemma size_setChain : (m.setChain id c).chains.size = m.chains.size :=
  Array.size_setIfInBounds

@[simp] lemma store_setChain : (m.setChain id c).store = m.store := rfl

@[simp] lemma launcher_setChain : (m.setChain id c).launcher = m.launcher := rfl

/-! ### Restaging -/

/-- A value is on offer: it is buffered in a channel, or a chain is about to send it. -/
def Offers (m : Machine) (v : Value) : Prop :=
  (∃ ch, v ∈ (m.store.channel ch).buffer) ∨
    ∃ x c ch phase, m.chain? x = some c ∧ c.stage = .send ch v phase

/-- What protocols can make of a chain. -/
inductive Restaged (m : Machine) (c : Chain) : Chain → Prop
  | sending {ch : ChannelId} {v : Value} {phase : SendPhase} (next : SendPhase)
    (h : c.stage = .send ch v phase) : Restaged m c { c with stage := .send ch v next }
  | refused {ch : ChannelId} {v : Value} {phase : SendPhase} (h : c.stage = .send ch v phase) :
    Restaged m c (c.exit (.error (.fault .sendOnClosed)))
  | sent {ch : ChannelId} {v : Value} {phase : SendPhase} (h : c.stage = .send ch v phase) :
    Restaged m c c.proceed
  | receiving {ch : ChannelId} {purpose : Purpose} {phase : ReceivePhase} (next : ReceivePhase)
    (h : c.stage = .receive ch purpose phase) :
    Restaged m c { c with stage := .receive ch purpose next }
  | received {ch : ChannelId} {purpose : Purpose} {phase : ReceivePhase} {v : Option Value}
    (h : c.stage = .receive ch purpose phase) (hv : ∀ w, v = some w → m.Offers w) :
    Restaged m c { c with stage := .received purpose v }
  | asleep {milliseconds time : Nat} (h : c.stage = .pause milliseconds) :
    Restaged m c { c with stage := .sleep time }
  | awake {time : Nat} (h : c.stage = .sleep time) : Restaged m c c.proceed
  | reserved {callee : Callee} {task : TaskId} (h : c.stage = .spawn callee) :
    Restaged m c { c with stage := .launch task callee }
  | launched {task : TaskId} {callee : Callee} {child : ChainId}
    (h : c.stage = .launch task callee) : Restaged m c { c with stage := .enlist child }
  | denied {task : TaskId} {callee : Callee} {message : String}
    (h : c.stage = .launch task callee) : Restaged m c { c with stage := .withdraw message }
  | withdrawn {message : String} (h : c.stage = .withdraw message) :
    Restaged m c { c with stage := .abandon message }
  | enlisted {child : ChainId} (h : c.stage = .enlist child) : Restaged m c c.proceed
  | joining {chains next : List ChainId} (h : c.stage = .join chains) :
    Restaged m c { c with stage := .join next }
  | joined {chains : List ChainId} (h : c.stage = .join chains) :
    Restaged m c (c.exit (.ok []))
  | leaving {outcome : Outcome} (h : c.stage = .exit outcome) :
    Restaged m c { c with stage := .leave outcome }
  | ended {outcome : Outcome} (h : c.stage = .leave outcome) :
    Restaged m c { c with stage := .ended outcome }

/-- Every chain is what it was before, or was restaged. -/
def Shifted (m m' : Machine) : Prop :=
  ∀ x c', m'.chain? x = some c' →
    m.chain? x = some c' ∨ ∃ c, m.chain? x = some c ∧ Restaged m c c'

lemma Shifted.refl (m : Machine) : Shifted m m := fun _ _ h => .inl h

lemma Shifted.setChain {m' : Machine} (hm : Shifted m m') (hc : m.chain? id = some c)
    (h : Restaged m c c') : Shifted m (m'.setChain id c') := by
  intro x d hd
  rcases of_chain?_setChain hd with hd | ⟨rfl, rfl⟩
  · exact hm x d hd
  · exact .inr ⟨c, hc, h⟩

/-- What the exchange over channels does to a machine. -/
structure Passes (m m' : Machine) : Prop where
  program : m'.program = m.program
  launcher : m'.launcher = m.launcher
  size : m'.chains.size = m.chains.size
  store : m'.store = m.store ∨ (∃ ch v, m.Offers v ∧ m'.store = m.store.pushValue ch v) ∨
    ∃ ch, m'.store = m.store.popValue ch
  shifted : Shifted m m'

lemma Passes.refl (m : Machine) : Passes m m := ⟨rfl, rfl, rfl, .inl rfl, .refl m⟩

lemma Passes.setChain {m' : Machine} (hm : Passes m m') (hc : m.chain? id = some c)
    (h : Restaged m c c') : Passes m (m'.setChain id c') :=
  ⟨hm.program, hm.launcher, size_setChain.trans hm.size, hm.store, hm.shifted.setChain hc h⟩

lemma Passes.park (hc : m.chain? id = some c) (h : Restaged m c c') :
    Passes m (m.park id c') := by
  have hm : Passes m { m with waiting := m.waiting ++ [id] } :=
    ⟨rfl, rfl, rfl, .inl rfl, .refl m⟩
  exact hm.setChain hc h

lemma Passes.rouse {m' : Machine} (hm : Passes m m') (hc : m.chain? id = some c)
    (h : Restaged m c c') : Passes m (m'.rouse id c') := by
  have hm' : Passes m { m' with waiting := m'.waiting.erase id } :=
    ⟨hm.program, hm.launcher, hm.size, hm.store, hm.shifted⟩
  exact hm'.setChain hc h

/-! ### The exchange -/

lemma of_firstWaiting? {α : Type} {ch : ChannelId} {test : Chain → Option α} {a : α}
    (h : m.firstWaiting? ch test = some (x, c, a)) : m.chain? x = some c ∧ test c = some a := by
  simp only [firstWaiting?] at h
  split_ifs at h
  obtain ⟨y, -, hy⟩ := List.exists_of_findSome?_eq_some h
  simp only [bind, Option.bind_eq_some_iff] at hy
  obtain ⟨c', hc', a', ha', he⟩ := hy
  cases he
  exact ⟨hc', ha'⟩

lemma of_offered? {ch : ChannelId} {v : Value} (h : c.offered? ch = some v) :
    c.stage = .send ch v .parked := by
  simp only [Chain.offered?] at h
  split at h
  case h_1 ch' w hs =>
    split_ifs at h with hch
    cases h
    rw [hs, hch]
  case h_2 => cases h

lemma of_wanted? {ch : ChannelId} {purpose : Purpose} (h : c.wanted? ch = some purpose) :
    c.stage = .receive ch purpose .parked := by
  simp only [Chain.wanted?] at h
  split at h
  case h_1 ch' w hs =>
    split_ifs at h with hch
    cases h
    rw [hs, hch]
  case h_2 => cases h

/-- A chain that waited at a channel is no longer waiting; `m` and `m'` have the same chains. -/
lemma Passes.callSender {m' : Machine} (hm : Passes m m') (hc : m'.chains = m.chains)
    (ch : ChannelId) : Passes m (m'.callSender ch) := by
  simp only [Machine.callSender]
  split
  case h_1 y d v hy =>
    obtain ⟨hd, ht⟩ := of_firstWaiting? hy
    rw [chain?, hc] at hd
    exact hm.rouse hd (.sending _ (of_offered? ht))
  case h_2 => exact hm

lemma Passes.callReceiver {m' : Machine} (hm : Passes m m') (hc : m'.chains = m.chains)
    (ch : ChannelId) : Passes m (m'.callReceiver ch) := by
  simp only [Machine.callReceiver]
  split
  case h_1 y d purpose hy =>
    obtain ⟨hd, ht⟩ := of_firstWaiting? hy
    rw [chain?, hc] at hd
    exact hm.rouse hd (.receiving _ (of_wanted? ht))
  case h_2 => exact hm

lemma passes_give? {m' : Machine} {ch : ChannelId} {v : Value} {phase : SendPhase}
    (hc : m.chain? id = some c) (hs : c.stage = .send ch v phase)
    (h : m.give? id c ch v = some m') : Passes m m' := by
  have hv : m.Offers v := .inr ⟨id, c, ch, phase, hc, hs⟩
  simp only [give?] at h
  split_ifs at h
  · cases h
    have hm : Passes m (m.mapStore fun s => s.pushValue ch v) :=
      ⟨rfl, rfl, rfl, .inr (.inl ⟨ch, v, hv, rfl⟩), .refl m⟩
    exact (hm.callReceiver rfl ch).setChain hc (.sent hs)
  · obtain ⟨⟨y, d, purpose⟩, hy, rfl⟩ := Option.map_eq_some_iff.mp h
    obtain ⟨hd, ht⟩ := of_firstWaiting? hy
    refine ((Passes.refl m).rouse hd ?_).setChain hc (.sent hs)
    refine .received (of_wanted? ht) fun w hw => ?_
    cases hw
    exact hv

lemma passes_take? {m' : Machine} {ch : ChannelId} {purpose : Purpose} {phase : ReceivePhase}
    (hc : m.chain? id = some c) (hs : c.stage = .receive ch purpose phase)
    (h : m.take? id c ch purpose = some m') : Passes m m' := by
  simp only [take?] at h
  split at h
  case h_1 v rest hb =>
    cases h
    have hm : Passes m (m.mapStore fun s => s.popValue ch) :=
      ⟨rfl, rfl, rfl, .inr (.inr ⟨ch, rfl⟩), .refl m⟩
    refine (hm.callSender rfl ch).setChain hc (.received hs fun w hw => ?_)
    cases hw
    exact .inl ⟨ch, by rw [hb]; exact List.mem_cons_self⟩
  case h_2 hb =>
    split_ifs at h
    obtain ⟨⟨y, d, v⟩, hy, rfl⟩ := Option.map_eq_some_iff.mp h
    obtain ⟨hd, ht⟩ := of_firstWaiting? hy
    refine ((Passes.refl m).rouse hd (.sent (of_offered? ht))).setChain hc ?_
    refine .received hs fun w hw => ?_
    cases hw
    exact .inr ⟨y, d, ch, .parked, hd, of_offered? ht⟩

lemma passes_send {ch : ChannelId} {v : Value} {phase : SendPhase}
    (hc : m.chain? id = some c) (hs : c.stage = .send ch v phase) :
    Passes m (m.send id c ch v phase) := by
  cases phase with
  | check =>
    simp only [Machine.send]
    split_ifs
    · exact (Passes.refl m).setChain hc (.refused hs)
    · exact (Passes.refl m).setChain hc (.sending _ hs)
  | offer =>
    simp only [Machine.send]
    cases hg : m.give? id c ch v with
    | some m' => exact passes_give? hc hs hg
    | none =>
      dsimp only
      split_ifs
      · exact .refl m
      · exact .park hc (.sending _ hs)
  | parked =>
    simp only [Machine.send]
    split_ifs
    · exact (Passes.refl m).rouse hc (.sending _ hs)
    · exact .refl m

lemma passes_receive {ch : ChannelId} {purpose : Purpose} {phase : ReceivePhase}
    (hc : m.chain? id = some c) (hs : c.stage = .receive ch purpose phase) :
    Passes m (m.receive id c ch purpose phase) := by
  have hset : ∀ next, Passes m (m.setChain id { c with stage := .receive ch purpose next }) :=
    fun next => (Passes.refl m).setChain hc (.receiving next hs)
  cases phase with
  | attempt =>
    simp only [Machine.receive]
    cases ht : m.take? id c ch purpose with
    | some m' => exact passes_take? hc hs ht
    | none => exact hset .check
  | check => exact hset _
  | offer =>
    simp only [Machine.receive]
    cases ht : m.take? id c ch purpose with
    | some m' => exact passes_take? hc hs ht
    | none =>
      dsimp only
      split_ifs
      · exact .refl m
      · exact .park hc (.receiving _ hs)
  | parked =>
    simp only [Machine.receive]
    split_ifs
    · exact (Passes.refl m).rouse hc (.receiving _ hs)
    · exact .refl m
  | drain =>
    simp only [Machine.receive]
    cases ht : m.take? id c ch purpose with
    | some m' => exact passes_take? hc hs ht
    | none => exact (Passes.refl m).setChain hc (.received hs fun w hw => by cases hw)

lemma passes_seeClosed (m : Machine) (id : ChainId) : Passes m (m.seeClosed id) := by
  simp only [seeClosed]
  cases hc : m.chain? id with
  | none => exact .refl m
  | some c =>
    dsimp only
    split
    case h_1 ch v hs =>
      split_ifs
      · exact (Passes.refl m).setChain hc (.refused hs)
      · exact .refl m
    case h_2 ch purpose hs =>
      split_ifs
      · exact (Passes.refl m).setChain hc (.receiving _ hs)
      · exact .refl m
    case h_3 => exact .refl m

/-! ### All protocols -/

/-- What a move does that is part of a protocol. -/
structure Proceeds (m : Machine) (mv : Move) (m' : Machine) : Prop where
  program : m'.program = m.program
  size : m.chains.size ≤ m'.chains.size
  store : m'.store = m.store ∨ (∃ ch v, m.Offers v ∧ m'.store = m.store.pushValue ch v) ∨
    ∃ ch, m'.store = m.store.popValue ch
  chains : ∀ x c', m'.chain? x = some c' →
    m.chain? x = some c' ∨ (∃ c, m.chain? x = some c ∧ Restaged m c c') ∨
      ∃ y c task callee, mv = .run y ∧ m.chain? y = some c ∧ c.stage = .launch task callee ∧
        x = ⟨m.chains.size⟩ ∧ c' = .ofTask task callee
  faults : ∀ e ∈ m'.launcher.faults, e ∈ m.launcher.faults ∨
    ∃ y c stop, m.chain? y = some c ∧ c.stage = .exit (.error stop) ∧ stop.recorded? = some e.2

variable {mv : Move}

lemma Passes.proceeds {m' : Machine} (h : Passes m m') : Proceeds m mv m' where
  program := h.program
  size := Nat.le_of_eq h.size.symm
  store := h.store
  chains x c' hx := (h.shifted x c' hx).imp_right .inl
  faults _ he := .inl (h.launcher ▸ he)

/-- A change of the launcher that records nothing, together with a chain that is restaged. -/
lemma Proceeds.account (hc : m.chain? id = some c) (h : Restaged m c c') {l : Launcher}
    (hl : l.faults = m.launcher.faults) :
    Proceeds m mv ({ m with launcher := l }.setChain id c') where
  program := rfl
  size := Nat.le_of_eq size_setChain.symm
  store := .inl rfl
  chains x d hd := ((Shifted.refl m).setChain hc h x d hd).imp_right .inl
  faults _ he := .inl (hl ▸ he)

lemma proceeds_grant {task : TaskId} {callee : Callee} (hc : m.chain? id = some c)
    (hs : c.stage = .launch task callee) :
    Proceeds m (.run id) (m.grant id c task callee) where
  program := rfl
  size := by
    simp only [grant, count, addChain, size_setChain, Array.size_push, Nat.le_add_right]
  store := .inl rfl
  chains x d hd := by
    rcases of_chain?_setChain hd with hd | ⟨rfl, rfl⟩
    · simp only [chain?, Array.getElem?_push] at hd
      split_ifs at hd with hx
      · cases hd
        refine .inr (.inr ⟨id, c, task, callee, rfl, hc, hs, ?_, rfl⟩)
        cases x
        exact congrArg ChainId.mk hx
      · exact .inl hd
    · exact .inr (.inl ⟨c, hc, .launched hs⟩)
  faults _ he := .inl he

lemma proceeds_launch {task : TaskId} {callee : Callee} (hc : m.chain? id = some c)
    (hs : c.stage = .launch task callee) :
    Proceeds m (.run id) (m.launch id c task callee) := by
  rw [launch]
  split
  · exact proceeds_grant hc hs
  · exact .account hc (.denied hs) rfl

lemma proceeds_join {chains : List ChainId} (hc : m.chain? id = some c)
    (hs : c.stage = .join chains) : Proceeds m mv (m.join id c chains) := by
  cases chains with
  | cons y rest =>
    simp only [join]
    split_ifs
    · exact ((Passes.refl m).setChain hc (.joining hs)).proceeds
    · exact (Passes.refl m).proceeds
  | nil =>
    simp only [join]
    split
    · exact ((Passes.refl m).setChain hc (.joined hs)).proceeds
    · exact .account hc (.joining hs) rfl

lemma proceeds_record {outcome : Outcome} (hc : m.chain? id = some c)
    (hs : c.stage = .exit outcome) :
    Proceeds m mv ((m.record c outcome).setChain id { c with stage := .leave outcome }) := by
  simp only [record]
  split
  case h_1 task stop ht =>
    refine ⟨rfl, Nat.le_of_eq size_setChain.symm, .inl rfl, fun x d hd => ?_, fun e he => ?_⟩
    · exact ((Shifted.refl m).setChain hc (.leaving hs) x d hd).imp_right .inl
    · rcases List.mem_append.mp he with he | he
      · exact .inl he
      · obtain ⟨f, hf, rfl⟩ := List.mem_map.mp he
        exact .inr ⟨id, c, stop, hc, hs, Option.mem_toList.mp hf⟩
  case h_2 => exact ((Passes.refl m).setChain hc (.leaving hs)).proceeds

lemma proceeds_retire {outcome : Outcome} (hc : m.chain? id = some c)
    (hs : c.stage = .leave outcome) :
    Proceeds m mv ((m.retire c).setChain id { c with stage := .ended outcome }) := by
  simp only [retire]
  split_ifs
  · exact .account hc (.ended hs) rfl
  · exact ((Passes.refl m).setChain hc (.ended hs)).proceeds

lemma proceeds_wake {time : Nat} (hc : m.chain? id = some c) (hs : c.stage = .sleep time) :
    Proceeds m mv (m.wake id c time) := by
  simp only [wake]
  split_ifs
  · exact ((Passes.refl m).setChain hc (.awake hs)).proceeds
  · exact (Passes.refl m).proceeds

/-! ### All moves -/

lemma stepChain_eq (m : Machine) (id : ChainId) (c : Chain) (step : Op Chain) :
    m.stepChain id c step = match step m.store with
      | .ok d s => (m.mapStore fun _ => s).setChain id d
      | .error e s => (m.mapStore fun _ => s).setChain id (stopChain c e) := by
  obtain ⟨program, store, chains, launcher, waiting, clock⟩ := m
  simp only [stepChain]
  cases step store <;> rfl

/-- A chain that can make a step by itself does so when it runs. -/
lemma run_of_advance {step : Op Chain} (hc : m.chain? x = some c)
    (ha : c.advance m.program = some step) : m.run x = m.stepChain x c step := by
  simp only [run, hc, ha]
  simp only [Chain.advance] at ha
  cases hs : c.stage <;> rw [hs] at ha <;> first | rfl | cases ha

/-- A task is started if the system has a thread for it. -/
lemma step_grant {task : TaskId} {callee : Callee} (hc : m.chain? x = some c)
    (hs : c.stage = .launch task callee)
    (hr : m.program.config.refusal? task.index = none) :
    m.step (.run x) = m.grant x c task callee := by
  simp only [step, run, hc, hs, launch, hr]

lemma step_deny {task : TaskId} {callee : Callee} {message : String} (hc : m.chain? x = some c)
    (hs : c.stage = .launch task callee)
    (hr : m.program.config.refusal? task.index = some message) :
    m.step (.run x) = m.refuse x c message := by
  simp only [step, run, hc, hs, launch, hr]

/-- A chain makes a step by itself. -/
def Advances (m : Machine) (mv : Move) (m' : Machine) : Prop :=
  ∃ id c step, mv = .run id ∧ m.chain? id = some c ∧ c.advance m.program = some step ∧
    m' = m.stepChain id c step

/-- Whatever a move does is a step of a chain by itself, or part of a protocol. -/
theorem step_cases (m : Machine) (mv : Move) :
    Proceeds m mv (m.step mv) ∨ Advances m mv (m.step mv) := by
  cases mv with
  | pass microseconds => exact .inl (Passes.proceeds ⟨rfl, rfl, rfl, .inl rfl, .refl m⟩)
  | seeClosed id => exact .inl (passes_seeClosed m id).proceeds
  | run id =>
    simp only [step, run]
    cases hc : m.chain? id with
    | none => exact .inl (Passes.refl m).proceeds
    | some c =>
      have hset : ∀ c', Restaged m c c' → Proceeds m (.run id) (m.setChain id c') :=
        fun c' h => ((Passes.refl m).setChain hc h).proceeds
      have hadvance : ∀ op, c.advance m.program = some op →
          Proceeds m (.run id) (m.stepChain id c op) ∨
            Advances m (.run id) (m.stepChain id c op) :=
        fun op h => .inr ⟨id, c, op, rfl, hc, h, rfl⟩
      dsimp only
      cases hs : c.stage
      all_goals dsimp only
      case send ch v phase => exact .inl (passes_send hc hs).proceeds
      case receive ch purpose phase => exact .inl (passes_receive hc hs).proceeds
      case pause milliseconds => exact .inl (hset _ (.asleep hs))
      case sleep time => exact .inl (proceeds_wake hc hs)
      case spawn callee => exact .inl (.account hc (.reserved hs) rfl)
      case launch task callee => exact .inl (proceeds_launch hc hs)
      case withdraw message => exact .inl (.account hc (.withdrawn hs) rfl)
      case enlist child => exact .inl (.account hc (.enlisted hs) rfl)
      case join chains => exact .inl (proceeds_join hc hs)
      case exit outcome => exact .inl (proceeds_record hc hs)
      case leave outcome => exact .inl (proceeds_retire hc hs)
      case ended outcome => exact .inl (Passes.refl m).proceeds
      case lost => exact .inl (Passes.refl m).proceeds
      all_goals
        simp only [Chain.advance, hs]
        exact hadvance _ (by simp only [Chain.advance, hs])

lemma size_step (m : Machine) (mv : Move) : m.chains.size ≤ (m.step mv).chains.size := by
  rcases m.step_cases mv with h | ⟨id, c, step, -, -, -, h⟩
  · exact h.size
  · rw [h, stepChain]
    split <;> exact Nat.le_of_eq Array.size_setIfInBounds.symm

/-- No chain disappears. -/
lemma exists_chain?_step (h : ∃ c, m.chain? x = some c) (mv : Move) :
    ∃ c, (m.step mv).chain? x = some c := by
  obtain ⟨c, hc⟩ := h
  have hlt : x.index < m.chains.size := (Array.getElem?_eq_some_iff.mp hc).1
  exact ⟨_, Array.getElem?_eq_getElem (Nat.lt_of_lt_of_le hlt (m.size_step mv))⟩

end Machine

/-! ### What a host can do -/

/-- The chains that a host begins. -/
inductive Chain.Hosted : Chain → Prop
  | atNode (entry : NodeId) : Hosted (.atNode entry)
  | ofCall (callee : Value) (receiver : Option Value) (args : List Value) :
    Hosted (.ofCall callee receiver args)
  | ofSend (ch : ChannelId) (v : Value) : Hosted (.ofSend ch v)
  | ofReceive (ch : ChannelId) : Hosted (.ofReceive ch)
  | ofJoin : Hosted .ofJoin

/-- What a host can come to from a machine, when it begins only chains that are admitted: moves
are made, in any order, and chains begin, at any time. -/
inductive Machine.Reachable (admits : Machine → Chain → Prop) (start : Machine) :
    Machine → Prop
  | start : Reachable admits start start
  | move {m : Machine} (mv : Move) (h : Reachable admits start m) :
    Reachable admits start (m.step mv)
  | host {m : Machine} {c : Chain} (h : Reachable admits start m) (hc : admits m c) :
    Reachable admits start (m.addChain c).2

lemma Machine.Reachable.moves {admits : Machine → Chain → Prop} {start m : Machine}
    (moves : List Move) (h : Reachable admits start m) :
    Reachable admits start (moves.foldl Machine.step m) := by
  induction moves generalizing m with
  | nil => exact h
  | cons mv moves ih => exact ih (.move mv h)

end Flowgraph
