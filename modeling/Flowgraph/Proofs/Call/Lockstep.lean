import Mathlib.Tactic.Common
import Flowgraph.Proofs.Call.Within

/-!
# Machines in lockstep

Two machines differ in one chain only: one of them is inside a call there, and the other one has
begun with the call. Every move does the same to both, until the call is over. What other chains
do meanwhile makes no difference, for they find the same store and the same waiting chains.
-/

namespace Flowgraph

variable {base : List Walk} {c c' d d' : Chain} {id x : ChainId} {m m' : Machine}

namespace Machine

/-! ### Machines that differ in one chain -/

/-- Chains of the same name in two machines: those of one name are related, and all others are
equal. -/
inductive Twin (T : Chain → Chain → Prop) (id : ChainId) : ChainId → Chain → Chain → Prop
  | related {c c' : Chain} (h : T c c') : Twin T id id c c'
  | equal {x : ChainId} {c : Chain} (h : x ≠ id) : Twin T id x c c

/-- Two machines are equal but for one chain, and that one is related to the other. -/
structure Beside (T : Chain → Chain → Prop) (id : ChainId) (m m' : Machine) : Prop where
  program : m'.program = m.program
  store : m'.store = m.store
  launcher : m'.launcher = m.launcher
  waiting : m'.waiting = m.waiting
  clock : m'.clock = m.clock
  size : m'.chains.size = m.chains.size
  chains : ∀ x c, m.chain? x = some c → ∃ c', m'.chain? x = some c' ∧ Twin T id x c c'

variable {T U : Chain → Chain → Prop}

lemma Twin.mono (h : Twin T id x c c') (hT : ∀ c c', T c c' → U c c') : Twin U id x c c' := by
  cases h with
  | related h => exact .related (hT _ _ h)
  | equal h => exact .equal h

namespace Beside

lemma mono (h : Beside T id m m') (hT : ∀ c c', T c c' → U c c') : Beside U id m m' where
  program := h.program
  store := h.store
  launcher := h.launcher
  waiting := h.waiting
  clock := h.clock
  size := h.size
  chains x c hc := by
    obtain ⟨c', hc', ht⟩ := h.chains x c hc
    exact ⟨c', hc', ht.mono hT⟩

lemma chain?_none (h : Beside T id m m') (hc : m.chain? x = none) : m'.chain? x = none := by
  rw [chain?, Array.getElem?_eq_none_iff] at hc ⊢
  rw [h.size]
  exact hc

lemma setChain (h : Beside T id m m') (ht : Twin T id x d d') :
    Beside T id (m.setChain x d) (m'.setChain x d') where
  program := h.program
  store := h.store
  launcher := h.launcher
  waiting := h.waiting
  clock := h.clock
  size := by
    simp only [Machine.setChain, Array.size_setIfInBounds]
    exact h.size
  chains y c hc := by
    by_cases hy : y = x
    · subst hy
      cases hm : m.chain? y with
      | none =>
        rw [chain?, Array.getElem?_eq_none_iff] at hm
        simp only [Machine.setChain, chain?, Array.getElem?_setIfInBounds, if_true] at hc
        rw [if_neg (by omega)] at hc
        cases hc
      | some e =>
        obtain ⟨e', he', -⟩ := h.chains y e hm
        rw [chain?_setChain_self hm] at hc
        cases hc
        exact ⟨d', chain?_setChain_self he', ht⟩
    · rw [chain?_setChain_of_ne hy] at hc
      obtain ⟨c', hc', hcc⟩ := h.chains y c hc
      exact ⟨c', by rw [chain?_setChain_of_ne hy, hc'], hcc⟩

lemma setWaiting (h : Beside T id m m') (waiting : List ChainId) :
    Beside T id { m with waiting := waiting } { m' with waiting := waiting } :=
  ⟨h.program, h.store, h.launcher, rfl, h.clock, h.size, h.chains⟩

lemma setLauncher (h : Beside T id m m') (launcher : Launcher) :
    Beside T id { m with launcher := launcher } { m' with launcher := launcher } :=
  ⟨h.program, h.store, rfl, h.waiting, h.clock, h.size, h.chains⟩

lemma mapStore (h : Beside T id m m') (change : Store → Store) :
    Beside T id (m.mapStore change) (m'.mapStore change) :=
  ⟨h.program, congrArg change h.store, h.launcher, h.waiting, h.clock, h.size, h.chains⟩

lemma park (h : Beside T id m m') (ht : Twin T id x d d') :
    Beside T id (m.park x d) (m'.park x d') := by
  have hw := h.setWaiting (m.waiting ++ [x])
  rw [Machine.park, Machine.park, h.waiting]
  exact hw.setChain ht

lemma rouse (h : Beside T id m m') (ht : Twin T id x d d') :
    Beside T id (m.rouse x d) (m'.rouse x d') := by
  have hw := h.setWaiting (m.waiting.erase x)
  rw [Machine.rouse, Machine.rouse, h.waiting]
  exact hw.setChain ht

end Beside

/-! ### Twins inside a call -/

namespace Twin

variable (h : Twin (Chain.Within base) id x c c')

include h

lemma stage_eq : c'.stage = c.stage ∨
    ∃ depth depth' callee, c.stage = .start depth callee ∧ c'.stage = .start depth' callee := by
  cases h with
  | related h => exact h.stage_eq.imp_left Eq.symm
  | equal h => exact .inl rfl

lemma isBeginning_eq (hb : c.stage.isBeginning = false) : c'.stage.isBeginning = false := by
  rcases h.stage_eq with he | ⟨depth, depth', callee, he, he'⟩
  · rw [he, hb]
  · rw [he] at hb
    cases hb

lemma restage {stage : Stage} (hb : c.stage.isBeginning = false) (hi : stage.isInside = true) :
    Twin (Chain.Within base) id x { c with stage := stage } { c' with stage := stage } := by
  have hb' := h.isBeginning_eq hb
  cases h with
  | related h => exact .related (h.restage (h.walks_ne_nil hb') hi)
  | equal h => exact .equal h

lemma proceed (hb : c.stage.isBeginning = false) :
    Twin (Chain.Within base) id x c.proceed c'.proceed := by
  have hb' := h.isBeginning_eq hb
  cases h with
  | related h => exact .related (h.proceed (h.walks_ne_nil hb'))
  | equal h => exact .equal h

/-- Only other chains are in stages in which a call is over. -/
lemma eq_of_over (hi : c.stage.isInside = false) : x ≠ id ∧ c' = c := by
  cases h with
  | related h =>
    have hinside := h.inside
    rcases h.stage_eq with he | ⟨depth, depth', callee, he, he'⟩
    · simp [← he, hi] at hinside
    · rw [he] at hi
      cases hi
  | equal h => exact ⟨h, rfl⟩

lemma exit (e : Stop) : Twin (Chain.Alike base) id x (c.exit (.error e)) (c'.exit (.error e)) := by
  cases h with
  | related h => exact .related (Chain.alike_exit _ _ e)
  | equal h => exact .equal h

lemma stopChain (e : Stop) :
    Twin (Chain.Alike base) id x (Machine.stopChain c e) (Machine.stopChain c' e) := by
  cases h with
  | related h => exact .related (Chain.alike_stopChain _ _ e)
  | equal h => exact .equal h

lemma offered?_eq (ch : ChannelId) : c'.offered? ch = c.offered? ch := by
  rcases h.stage_eq with he | ⟨depth, depth', callee, he, he'⟩
  · rw [Chain.offered?, Chain.offered?, he]
  · rw [Chain.offered?, Chain.offered?, he, he']

lemma wanted?_eq (ch : ChannelId) : c'.wanted? ch = c.wanted? ch := by
  rcases h.stage_eq with he | ⟨depth, depth', callee, he, he'⟩
  · rw [Chain.wanted?, Chain.wanted?, he]
  · rw [Chain.wanted?, Chain.wanted?, he, he']

lemma hasEnded_eq : c'.hasEnded = c.hasEnded := by
  rcases h.stage_eq with he | ⟨depth, depth', callee, he, he'⟩
  · rw [Chain.hasEnded, Chain.hasEnded, Chain.outcome?, Chain.outcome?, he]
  · rw [Chain.hasEnded, Chain.hasEnded, Chain.outcome?, Chain.outcome?, he, he']

/-- Twins make steps of their own that agree. -/
lemma advance {p : Program} (hfit : x = id → c'.Fits p) (hlimit : p.config.maxCallDepth = none)
    {step : Op Chain} (ha : c.advance p = some step) (s : Store) :
    ∃ step', c'.advance p = some step' ∧
      Op.Alike (Twin (Chain.Alike base) id x) (step s) (step' s) := by
  cases h with
  | related h =>
    obtain ⟨step', ha', hagree⟩ := Chain.agree_advance h (hfit rfl) hlimit ha
    exact ⟨step', ha', (hagree s).mono fun _ _ => .related⟩
  | equal hx => exact ⟨step, ha, .refl _ fun _ => .equal hx⟩

/-- Only at the beginning of a call are twins in different stages, and there they step by
themselves. -/
lemma stage_of_joint {p : Program} (ha : c.advance p = none) : c'.stage = c.stage := by
  rcases h.stage_eq with he | ⟨depth, depth', callee, he, -⟩
  · exact he
  · simp [Chain.advance, he] at ha

end Twin

/-! ### Moves -/

variable {m₁ m₁' : Machine} {ch : ChannelId}

namespace Beside

section Exchange

variable (h : Beside (Chain.Within base) id m m')

include h

/-- Whoever is found waiting in one machine is found waiting in the other one. -/
lemma firstWaiting? {α : Type} {test : Chain → Option α}
    (htest : ∀ x c c', Twin (Chain.Within base) id x c c' → test c' = test c) :
    (m.firstWaiting? ch test = none ∧ m'.firstWaiting? ch test = none) ∨
      ∃ x c c' a, m.firstWaiting? ch test = some (x, c, a) ∧
        m'.firstWaiting? ch test = some (x, c', a) ∧ Twin (Chain.Within base) id x c c' := by
  simp only [Machine.firstWaiting?, h.store, h.waiting]
  split_ifs
  · exact .inl ⟨rfl, rfl⟩
  · induction m.waiting with
    | nil => exact .inl ⟨rfl, rfl⟩
    | cons y waiting ih =>
      rw [List.findSome?_cons, List.findSome?_cons]
      cases hm : m.chain? y with
      | none =>
        rw [h.chain?_none hm]
        exact ih
      | some c =>
        obtain ⟨c', hc', ht⟩ := h.chains y c hm
        rw [hc']
        cases ha : test c with
        | none =>
          simp only [bind, Option.bind, htest y c c' ht, ha]
          exact ih
        | some a =>
          simp only [bind, Option.bind, htest y c c' ht, ha]
          exact .inr ⟨y, c, c', a, rfl, rfl, ht⟩

lemma waitingSender? (ch : ChannelId) :
    (m.waitingSender? ch = none ∧ m'.waitingSender? ch = none) ∨
      ∃ x c c' v, m.waitingSender? ch = some (x, c, v) ∧ m'.waitingSender? ch = some (x, c', v) ∧
        c.stage = .send ch v .parked ∧ Twin (Chain.Within base) id x c c' := by
  rcases h.firstWaiting? fun x c c' ht => ht.offered?_eq ch with hn | ⟨x, c, c', v, hc, hc', ht⟩
  · exact .inl hn
  · exact .inr ⟨x, c, c', v, hc, hc', of_offered? (of_firstWaiting? hc).2, ht⟩

lemma waitingReceiver? (ch : ChannelId) :
    (m.waitingReceiver? ch = none ∧ m'.waitingReceiver? ch = none) ∨
      ∃ x c c' purpose, m.waitingReceiver? ch = some (x, c, purpose) ∧
        m'.waitingReceiver? ch = some (x, c', purpose) ∧
        c.stage = .receive ch purpose .parked ∧ Twin (Chain.Within base) id x c c' := by
  rcases h.firstWaiting? fun x c c' ht => ht.wanted?_eq ch with hn | ⟨x, c, c', v, hc, hc', ht⟩
  · exact .inl hn
  · exact .inr ⟨x, c, c', v, hc, hc', of_wanted? (of_firstWaiting? hc).2, ht⟩

lemma callSender : Beside (Chain.Within base) id (m.callSender ch) (m'.callSender ch) := by
  simp only [Machine.callSender]
  rcases h.waitingSender? ch with ⟨hn, hn'⟩ | ⟨x, c, c', v, hc, hc', hs, ht⟩
  · rw [hn, hn']
    exact h
  · rw [hc, hc']
    exact h.rouse (ht.restage (by rw [hs]; rfl) rfl)

lemma callReceiver : Beside (Chain.Within base) id (m.callReceiver ch) (m'.callReceiver ch) := by
  simp only [Machine.callReceiver]
  rcases h.waitingReceiver? ch with ⟨hn, hn'⟩ | ⟨x, c, c', v, hc, hc', hs, ht⟩
  · rw [hn, hn']
    exact h
  · rw [hc, hc']
    exact h.rouse (ht.restage (by rw [hs]; rfl) rfl)

variable (ht : Twin (Chain.Within base) id x c c') (hb : c.stage.isBeginning = false)

include ht hb

lemma give? (ch : ChannelId) (v : Value) :
    Option.Rel (Beside (Chain.Within base) id) (m.give? x c ch v)
    (m'.give? x c' ch v) := by
  simp only [Machine.give?, h.store]
  split_ifs
  · exact .some ((h.mapStore _).callReceiver.setChain (ht.proceed hb))
  · rcases h.waitingReceiver? ch with ⟨hn, hn'⟩ | ⟨y, d, d', purpose, hd, hd', hs, hy⟩
    · rw [hn, hn']
      exact .none
    · rw [hd, hd']
      exact .some ((h.rouse (hy.restage (by rw [hs]; rfl) rfl)).setChain (ht.proceed hb))
  · exact .none

lemma take? (ch : ChannelId) (purpose : Purpose) : Option.Rel (Beside (Chain.Within base) id)
    (m.take? x c ch purpose) (m'.take? x c' ch purpose) := by
  have hreceived : ∀ v, Twin (Chain.Within base) id x { c with stage := .received purpose v }
      { c' with stage := .received purpose v } := fun v => ht.restage hb rfl
  simp only [Machine.take?, h.store]
  cases (m.store.channel ch).buffer with
  | cons v rest => exact .some ((h.mapStore _).callSender.setChain (hreceived _))
  | nil =>
    dsimp only
    split_ifs
    · rcases h.waitingSender? ch with ⟨hn, hn'⟩ | ⟨y, d, d', v, hd, hd', hs, hy⟩
      · rw [hn, hn']
        exact .none
      · rw [hd, hd']
        exact .some ((h.rouse (hy.proceed (by rw [hs]; rfl))).setChain (hreceived _))
    · exact .none

lemma send (v : Value) (phase : SendPhase) :
    Beside (Chain.Alike base) id (m.send x c ch v phase) (m'.send x c' ch v phase) := by
  have hsend : ∀ next, Twin (Chain.Within base) id x { c with stage := .send ch v next }
      { c' with stage := .send ch v next } := fun next => ht.restage hb rfl
  have halike : Beside (Chain.Alike base) id m m' := h.mono fun _ _ => .inl
  cases phase with
  | check =>
    simp only [Machine.send, h.store]
    split_ifs
    · exact halike.setChain (ht.exit _)
    · exact (h.setChain (hsend _)).mono fun _ _ => .inl
  | offer =>
    have hgive := h.give? ht hb ch v
    simp only [Machine.send, h.store]
    generalize m.give? x c ch v = given, m'.give? x c' ch v = given' at hgive
    cases hgive with
    | some hm => exact hm.mono fun _ _ => .inl
    | none =>
      dsimp only
      split_ifs
      · exact halike
      · exact (h.park (hsend _)).mono fun _ _ => .inl
  | parked =>
    simp only [Machine.send, h.store]
    split_ifs
    · exact (h.rouse (hsend _)).mono fun _ _ => .inl
    · exact halike

lemma receive (purpose : Purpose) (phase : ReceivePhase) :
    Beside (Chain.Within base) id (m.receive x c ch purpose phase)
      (m'.receive x c' ch purpose phase) := by
  have hreceive : ∀ next, Twin (Chain.Within base) id x
      { c with stage := .receive ch purpose next } { c' with stage := .receive ch purpose next } :=
    fun next => ht.restage hb rfl
  have hreceived : ∀ v, Twin (Chain.Within base) id x { c with stage := .received purpose v }
      { c' with stage := .received purpose v } := fun v => ht.restage hb rfl
  have htake := h.take? ht hb ch purpose
  generalize hr : m.take? x c ch purpose = taken at htake
  generalize hr' : m'.take? x c' ch purpose = taken' at htake
  cases phase with
  | check =>
    simp only [Machine.receive, h.store]
    exact h.setChain (hreceive _)
  | parked =>
    simp only [Machine.receive, h.store]
    split_ifs
    · exact h.rouse (hreceive _)
    · exact h
  | attempt =>
    simp only [Machine.receive, hr, hr']
    cases htake with
    | some hm => exact hm
    | none => exact h.setChain (hreceive _)
  | offer =>
    simp only [Machine.receive, h.store, hr, hr']
    cases htake with
    | some hm => exact hm
    | none =>
      dsimp only
      split_ifs
      · exact h
      · exact h.park (hreceive _)
  | drain =>
    simp only [Machine.receive, hr, hr']
    cases htake with
    | some hm => exact hm
    | none => exact h.setChain (hreceived _)

end Exchange

section Step

variable (h : Beside (Chain.Within base) id m m')

include h

lemma seeClosed (x : ChainId) :
    Beside (Chain.Alike base) id (m.seeClosed x) (m'.seeClosed x) := by
  have halike : Beside (Chain.Alike base) id m m' := h.mono fun _ _ => .inl
  simp only [Machine.seeClosed]
  cases hc : m.chain? x with
  | none =>
    rw [h.chain?_none hc]
    exact halike
  | some c =>
    obtain ⟨c', hc', ht⟩ := h.chains x c hc
    rw [hc']
    dsimp only
    rcases ht.stage_eq with he | ⟨depth, depth', callee, he, he'⟩
    · rw [he, h.store]
      split
      case h_1 =>
        split_ifs
        · exact halike.setChain (ht.exit _)
        · exact halike
      case h_2 hs =>
        split_ifs
        · exact (h.setChain (ht.restage (by rw [hs]; rfl) rfl)).mono fun _ _ => .inl
        · exact halike
      case h_3 => exact halike
    · rw [he, he']
      exact halike

/-- A step of a chain by itself. -/
lemma stepChain {step step' : Op Chain} (ht : Twin (Chain.Within base) id x c c')
    (hstep : Op.Alike (Twin (Chain.Alike base) id x) (step m.store) (step' m.store)) :
    Beside (Chain.Alike base) id (m.stepChain x c step) (m'.stepChain x c' step') := by
  have halike : Beside (Chain.Alike base) id m m' := h.mono fun _ _ => .inl
  rw [Machine.stepChain_eq, Machine.stepChain_eq, h.store]
  generalize step m.store = result, step' m.store = result' at hstep
  cases hstep with
  | ok s hd => exact (halike.mapStore _).setChain hd
  | error e s => exact (halike.mapStore _).setChain (ht.stopChain e)

lemma addChain (c : Chain) (hid : id ≠ ⟨m.chains.size⟩) :
    Beside (Chain.Within base) id (m.addChain c).2 (m'.addChain c).2 where
  program := h.program
  store := h.store
  launcher := h.launcher
  waiting := h.waiting
  clock := h.clock
  size := by simp only [Machine.addChain, Array.size_push, h.size]
  chains y d hd := by
    simp only [Machine.addChain, chain?, Array.getElem?_push, h.size] at hd ⊢
    split_ifs at hd ⊢ with hy
    · refine ⟨c, rfl, ?_⟩
      cases hd
      exact .equal fun he => hid (by rw [← he, ← hy])
    · exact h.chains y d hd

lemma hasEnded_eq (x : ChainId) : m'.hasEnded x = m.hasEnded x := by
  simp only [Machine.hasEnded]
  cases hm : m.chain? x with
  | none => rw [h.chain?_none hm]
  | some c =>
    obtain ⟨c', hc', ht⟩ := h.chains x c hm
    rw [hc']
    exact ht.hasEnded_eq

lemma count : Beside (Chain.Within base) id m.count m'.count := by
  simp only [Machine.count, h.launcher]
  exact h.setLauncher _

lemma discount : Beside (Chain.Within base) id m.discount m'.discount := by
  simp only [Machine.discount, h.launcher]
  exact h.setLauncher _

variable (ht : Twin (Chain.Within base) id x c c')

include ht

lemma launch (task : TaskId) (callee : Callee) (hid : id ≠ ⟨m.chains.size⟩)
    (hb : c.stage.isBeginning = false) :
    Beside (Chain.Within base) id (m.launch x c task callee) (m'.launch x c' task callee) := by
  simp only [Machine.launch, h.program]
  split
  · have hl := h.count.addChain (.ofTask task callee) hid
    simp only [Machine.grant, Machine.addChain, Machine.count, h.size] at hl ⊢
    exact hl.setChain (ht.restage hb rfl)
  · exact h.count.setChain (ht.restage hb rfl)

lemma enlist (child : ChainId) (hb : c.stage.isBeginning = false) :
    Beside (Chain.Within base) id (m.enlist x c child) (m'.enlist x c' child) := by
  simp only [Machine.enlist, h.launcher, h.hasEnded_eq]
  exact (h.setLauncher _).setChain (ht.proceed hb)

lemma wake (time : Nat) (hb : c.stage.isBeginning = false) :
    Beside (Chain.Within base) id (m.wake x c time) (m'.wake x c' time) := by
  simp only [Machine.wake, h.clock]
  split_ifs
  · exact h.setChain (ht.proceed hb)
  · exact h

omit ht

/-- The chains whose calls are over are others. -/
lemma join (hx : x ≠ id) (chains : List ChainId) :
    Beside (Chain.Within base) id (m.join x c chains) (m'.join x c chains) := by
  cases chains with
  | cons y rest =>
    simp only [Machine.join, h.hasEnded_eq]
    split_ifs
    · exact h.setChain (.equal hx)
    · exact h
  | nil =>
    simp only [Machine.join, h.launcher]
    split
    · exact h.setChain (.equal hx)
    · exact (h.setLauncher _).setChain (.equal hx)

lemma record (c : Chain) (outcome : Outcome) :
    Beside (Chain.Within base) id (m.record c outcome) (m'.record c outcome) := by
  simp only [Machine.record, h.launcher]
  split
  · exact h.setLauncher _
  · exact h

lemma retire (c : Chain) : Beside (Chain.Within base) id (m.retire c) (m'.retire c) := by
  simp only [Machine.retire]
  split_ifs
  · exact h.discount
  · exact h

/-- A chain makes a step by itself. -/
lemma run_alone (hfit : ∀ c', m'.chain? id = some c' → c'.Fits m.program)
    (hlimit : m.program.config.maxCallDepth = none) (hc : m.chain? x = some c)
    {step : Op Chain} (ha : c.advance m.program = some step) :
    Beside (Chain.Alike base) id (m.run x) (m'.run x) := by
  obtain ⟨c', hc', ht⟩ := h.chains x c hc
  obtain ⟨step', ha', hagree⟩ := ht.advance (fun hx => hfit c' (hx ▸ hc')) hlimit ha m.store
  rw [run_of_advance hc ha, run_of_advance hc' (by rw [h.program, ha'])]
  exact h.stepChain ht hagree

/-- A chain takes part in a protocol. -/
lemma run_joint (hid : ∃ e, m.chain? id = some e) (hc : m.chain? x = some c)
    (ha : c.advance m.program = none) :
    Beside (Chain.Alike base) id (m.run x) (m'.run x) := by
  obtain ⟨c', hc', ht⟩ := h.chains x c hc
  have hinside : ∀ {m₁ m₁' : Machine}, Beside (Chain.Within base) id m₁ m₁' →
      Beside (Chain.Alike base) id m₁ m₁' := fun hm => hm.mono fun _ _ => .inl
  simp only [Machine.run, hc, hc', ht.stage_of_joint ha]
  cases hs : c.stage
  all_goals
    dsimp only
  case send ch v phase => exact h.send ht (by rw [hs]; rfl) v phase
  case receive ch purpose phase => exact hinside (h.receive ht (by rw [hs]; rfl) purpose phase)
  case pause milliseconds =>
    rw [h.clock]
    exact hinside (h.setChain (ht.restage (by rw [hs]; rfl) rfl))
  case sleep time => exact hinside (h.wake ht time (by rw [hs]; rfl))
  case spawn callee =>
    simp only [Machine.reserve, h.launcher]
    exact hinside ((h.setLauncher _).setChain (ht.restage (by rw [hs]; rfl) rfl))
  case launch task callee =>
    have hlt : id ≠ ⟨m.chains.size⟩ := by
      intro he
      obtain ⟨e, he'⟩ := hid
      rw [he] at he'
      exact absurd (Array.getElem?_eq_some_iff.mp he').1 (Nat.lt_irrefl _)
    exact hinside (h.launch ht task callee hlt (by rw [hs]; rfl))
  case withdraw message =>
    exact hinside (h.discount.setChain (ht.restage (by rw [hs]; rfl) rfl))
  case enlist child => exact hinside (h.enlist ht child (by rw [hs]; rfl))
  case join chains =>
    obtain ⟨hx, rfl⟩ := ht.eq_of_over (by rw [hs]; rfl)
    exact hinside (h.join hx chains)
  case exit outcome =>
    obtain ⟨hx, rfl⟩ := ht.eq_of_over (by rw [hs]; rfl)
    exact hinside ((h.record c' outcome).setChain (.equal hx))
  case leave outcome =>
    obtain ⟨hx, rfl⟩ := ht.eq_of_over (by rw [hs]; rfl)
    exact hinside ((h.retire c').setChain (.equal hx))
  case ended outcome => exact hinside h
  case lost => exact hinside h
  all_goals
    simp [Chain.advance, hs] at ha

/-- A chain makes its next step. -/
lemma run (hid : ∃ e, m.chain? id = some e)
    (hfit : ∀ c', m'.chain? id = some c' → c'.Fits m.program)
    (hlimit : m.program.config.maxCallDepth = none) (x : ChainId) :
    Beside (Chain.Alike base) id (m.run x) (m'.run x) := by
  cases hc : m.chain? x with
  | none =>
    simp only [Machine.run, hc, h.chain?_none hc]
    exact h.mono fun _ _ => .inl
  | some c =>
    cases ha : c.advance m.program with
    | some step => exact h.run_alone hfit hlimit hc ha
    | none => exact h.run_joint hid hc ha

/-- Every move does the same to both machines, as long as the call is not over. -/
theorem step (hid : ∃ e, m.chain? id = some e)
    (hfit : ∀ c', m'.chain? id = some c' → c'.Fits m.program)
    (hlimit : m.program.config.maxCallDepth = none) (mv : Move) :
    Beside (Chain.Alike base) id (m.step mv) (m'.step mv) := by
  cases mv with
  | run x => exact h.run hid hfit hlimit x
  | seeClosed x => exact h.seeClosed x
  | pass microseconds =>
    simp only [Machine.step, h.clock]
    exact ⟨h.program, h.store, h.launcher, h.waiting, rfl, h.size, fun y c hc =>
      (h.mono fun _ _ => .inl).chains y c hc⟩

end Step

/-! ### Runs -/

/-- Knowing the chains in question, one can say more about them. -/
lemma narrow (h : Beside T id m m') (hc : m.chain? id = some c) (hc' : m'.chain? id = some c')
    (hU : U c c') : Beside U id m m' where
  program := h.program
  store := h.store
  launcher := h.launcher
  waiting := h.waiting
  clock := h.clock
  size := h.size
  chains y d hd := by
    obtain ⟨d', hd', ht⟩ := h.chains y d hd
    refine ⟨d', hd', ?_⟩
    cases ht with
    | related ht =>
      rw [hc] at hd
      rw [hc'] at hd'
      cases hd
      cases hd'
      exact .related hU
    | equal hy => exact .equal hy

/-- The chains in question are replaced. -/
lemma place (h : Beside T id m m') (hc : m.chain? id = some c) (hU : U d d') :
    Beside U id (m.setChain id d) (m'.setChain id d') := by
  obtain ⟨c', hc', -⟩ := h.chains id c hc
  have hset : Beside (fun _ _ => True) id (m.setChain id d) (m'.setChain id d') :=
    (h.mono fun _ _ _ => trivial).setChain (.related trivial)
  exact hset.narrow (chain?_setChain_self hc) (chain?_setChain_self hc') hU

/-- The chains in question make steps by themselves. -/
lemma stepPlace {step step' : Op Chain} (h : Beside T id m m') (hc : m.chain? id = some c)
    (hstep : Op.Alike U (step m.store) (step' m.store))
    (hstop : ∀ e, U (Machine.stopChain c e) (Machine.stopChain c' e)) :
    Beside U id (m.stepChain id c step) (m'.stepChain id c' step') := by
  rw [Machine.stepChain_eq, Machine.stepChain_eq, h.store]
  generalize step m.store = result, step' m.store = result' at hstep
  cases hstep with
  | ok s hd => exact (h.mapStore _).place hc hd
  | error e s => exact (h.mapStore _).place hc (hstop e)

/-- A call goes on in both machines, or it is over in both. -/
lemma of_alike (h : Beside (Chain.Alike base) id m m') (hid : ∃ e, m.chain? id = some e) :
    Beside (Chain.Within base) id m m' ∨ ∃ outcome, Beside (Chain.Over base outcome) id m m' := by
  obtain ⟨e, he⟩ := hid
  obtain ⟨e', he', ht⟩ := h.chains id e he
  cases ht with
  | related ht =>
    rcases ht with hin | ⟨outcome, hover⟩
    · exact .inl (h.narrow he he' hin)
    · exact .inr ⟨outcome, h.narrow he he' hover⟩
  | equal hne => exact absurd rfl hne

/-- After some moves, a call goes on in both machines, or it was over in both at the same time. -/
theorem moves (h : Beside (Chain.Alike base) id m m') (hid : ∃ e, m.chain? id = some e)
    (hfit : ∀ c', m'.chain? id = some c' → c'.Fits m'.program)
    (hlimit : m.program.config.maxCallDepth = none) (moves : List Move) :
    Beside (Chain.Within base) id (moves.foldl Machine.step m) (moves.foldl Machine.step m') ∨
      ∃ done todo outcome, moves = done ++ todo ∧ Beside (Chain.Over base outcome) id
        (done.foldl Machine.step m) (done.foldl Machine.step m') := by
  induction moves generalizing m m' with
  | nil =>
    rcases h.of_alike hid with hin | ⟨outcome, hover⟩
    · exact .inl hin
    · exact .inr ⟨[], [], outcome, rfl, hover⟩
  | cons mv moves ih =>
    rcases h.of_alike hid with hin | ⟨outcome, hover⟩
    · have hnext := hin.step hid (h.program ▸ hfit) hlimit mv
      rcases ih hnext (exists_chain?_step hid mv)
        (by rw [program_step]; exact fits_step hfit mv) (by rw [program_step]; exact hlimit)
        with hin | ⟨done, todo, outcome, rfl, hover⟩
      · exact .inl hin
      · exact .inr ⟨mv :: done, todo, outcome, rfl, hover⟩
    · exact .inr ⟨[], mv :: moves, outcome, rfl, hover⟩

end Beside

end Machine

end Flowgraph
