import Mathlib.Tactic.IntervalCases
import Flowgraph.Proofs.Close.Traces
import Flowgraph.Proofs.Streams.Conserved
import Flowgraph.Proofs.Streams.Draw

/-!
# Pipes transfer streams

What the loop of a pipe visits is at every moment the beginning of what the producer sends. The loop
comes to its end only after it has visited all of it, and neither of the two fails on the way.
-/

namespace Flowgraph

namespace Pipe

open Machine

variable {P : Pipe} {m : Machine} {capacity : Nat} {acts : List Act} {a : Act}

/-- What is sent of a stream is all of it. -/
lemma filterMap_sends (values : List Value) :
    (values.map Attempt.send ++ [Attempt.close]).filterMap Attempt.value? = values := by
  rw [List.filterMap_append, List.filterMap_map]
  change values.filterMap some ++ [] = values
  rw [List.filterMap_some, List.append_nil]

/-- The values among the answers are what was received. -/
lemma filterMap_answer? (ds : List Deed) :
    (ds.filterMap Deed.answer?).filterMap id = ds.filterMap Deed.taken? := by
  rw [List.filterMap_filterMap]
  refine congrArg (ds.filterMap ·) (funext fun d => ?_)
  cases d <;> rfl

/-! ### What is received -/

/-- Sends begin with all that was received and is buffered. -/
lemma Fed.taken (h : P.Fed m acts) (hplayed : P.Played m acts) (hfresh : P.Fresh m capacity)
    (hsane : m.Sane) : (m.history P.channel acts).filterMap Deed.taken? ++
      ((m.after acts).store.channel P.channel).buffer <+: P.values := by
  have horder := (trace_history hsane hfresh.inside acts).order
  rw [hfresh.empty, List.nil_append] at horder
  have hbegun := hplayed.producer.filterMap Attempt.value?
  rw [filterMap_sends, h.begun, horder] at hbegun
  exact (List.prefix_append _ _).trans hbegun

/-- Once the channel is closed, nothing is missing. -/
lemma Fed.taken_of_closed (h : P.Fed m acts) (hplayed : P.Played m acts)
    (hfresh : P.Fresh m capacity) (hsane : m.Sane)
    (hclosed : ((m.after acts).store.channel P.channel).closed = true) :
    (m.history P.channel acts).filterMap Deed.taken? ++
      ((m.after acts).store.channel P.channel).buffer = P.values := by
  have horder := (trace_history hsane hfresh.inside acts).order
  rw [hfresh.empty, List.nil_append] at horder
  have hbegun := h.begun
  rw [hplayed.complete (h.closed.mp hclosed), filterMap_sends, h.idle hclosed, Option.bind_none,
    Option.toList_none, List.append_nil] at hbegun
  rw [← horder, hbegun]

/-- When the channel answers that there is nothing left, all values have been received. -/
lemma Fed.taken_of_drained (h : P.Fed m acts) (hplayed : P.Played m acts)
    (hfresh : P.Fresh m capacity) (hsane : m.Sane)
    (hnone : none ∈ ((m.after acts).deeds P.channel a).filterMap Deed.answer?) :
    (m.history P.channel acts).filterMap Deed.taken? = P.values := by
  obtain ⟨d, hd, hanswer⟩ := List.mem_filterMap.mp hnone
  have hdrained : .received none ∈ (m.after acts).deeds P.channel a := by
    cases d with
    | received v =>
      cases hanswer
      exact hd
    | _ => cases hanswer
  have hch := Nat.lt_of_lt_of_le hfresh.inside (size_after hsane acts)
  obtain ⟨hclosed, hbuffer, -, -⟩ :=
    ((changes_act (hsane.after acts) a P.channel).does hch).drained hdrained
  have hvalues := h.taken_of_closed hplayed hfresh hsane hclosed
  rwa [hbuffer, List.append_nil] at hvalues

/-- The answers are values at first. Once the channel answers that there is nothing left, all
values have been received, and there is no other answer from then on. -/
lemma answers_eq (hplayed : P.Played m acts) (hfresh : P.Fresh m capacity) (hsane : m.Sane) :
    ∃ j, (m.history P.channel acts).filterMap Deed.answer? =
        ((m.history P.channel acts).filterMap Deed.taken?).map some ++ List.replicate j none ∧
      (j ≠ 0 → (m.history P.channel acts).filterMap Deed.taken? = P.values) := by
  induction acts using List.reverseRecOn with
  | nil => exact ⟨0, rfl, fun h => absurd rfl h⟩
  | append_singleton acts a ih =>
    have hbefore := hplayed.so_far
    have hfed := fed hbefore hfresh hsane
    obtain ⟨j, hanswers, hall⟩ := ih hbefore
    have hstart := (List.prefix_append _ _).trans
      ((fed hplayed hfresh hsane).taken hplayed hfresh hsane)
    have hnow := hfed.answers hplayed hsane hfresh.inside
    have htaken := filterMap_answer? ((m.after acts).deeds P.channel a)
    rw [history_concat, List.filterMap_append] at hstart
    rw [history_concat, List.filterMap_append, List.filterMap_append, hanswers]
    generalize ((m.after acts).deed? ((m.after acts).act a) P.channel P.consumer).bind
      Deed.answer? = answer at hnow
    rw [hnow] at htaken
    rw [← htaken] at hstart
    rw [hnow, ← htaken]
    cases answer with
    | none =>
      refine ⟨j, ?_, fun hj => ?_⟩
      · simp
      · simpa using hall hj
    | some v =>
      cases v with
      | some v =>
        -- Another value would be one too many.
        obtain rfl : j = 0 := by
          by_contra hj
          have hle := hstart.length_le
          rw [hall hj, List.length_append] at hle
          exact Nat.not_succ_le_self _ hle
        exact ⟨0, by simp, fun h => absurd rfl h⟩
      | none =>
        have hvalues := hfed.taken_of_drained hbefore hfresh hsane (by rw [hnow]; simp)
        refine ⟨j + 1, ?_, fun _ => ?_⟩
        · simp [List.replicate_succ']
        · simpa using hvalues

/-! ### What is visited -/

/-- What a pipe does, whatever order things happen in. -/
structure Transfers (P : Pipe) (m : Machine) (acts : List Act) : Prop where
  /-- What the loop has visited is the beginning of the values. -/
  visited : (m.rounds P acts).filterMap Round.value? <+: P.values.map .ok
  /-- When a round finds the end, each value has been visited once, in their order. -/
  finished : .finished ∈ m.rounds P acts → ∃ j, m.rounds P acts =
    P.values.map (fun v => .visited (.ok v)) ++ List.replicate j .finished
  /-- The flag says so, and it says so only then. -/
  flag : m.rounds P acts ≠ [] → (m.after acts).store.slot? P.frame P.slot = some (.bool false) →
    .finished ∈ m.rounds P acts
  /-- No send fails. -/
  unsent : ∀ v e, .unsent v e ∉ m.history P.channel acts
  /-- The close does not fail. -/
  closes : ∀ e, .closed (.error e) ∉ m.history P.channel acts
  /-- The loop does not fail: whatever happens, the consumer stays there until its round has come
  to its end. -/
  stays : ∀ before a behind, acts = before ++ a :: behind → ∀ c,
    (m.after before).chain? P.consumer = some c → c.at? = some (P.frame, P.node) →
      c.stage ≠ .follow → ∃ stage, P.Laps stage ∧
        ((m.after before).act a).chain? P.consumer = some { c with stage := stage }

lemma prefix_of_finished {rounds visits : List Round} {j : Nat}
    (h : rounds <+: visits ++ List.replicate j .finished) (hv : .finished ∉ visits)
    (hf : .finished ∈ rounds) : ∃ j, rounds = visits ++ List.replicate j .finished := by
  induction j with
  | zero =>
    rw [List.replicate_zero, List.append_nil] at h
    exact absurd (h.subset hf) hv
  | succ j ih =>
    rw [List.replicate_succ', ← List.append_assoc] at h
    rcases List.prefix_concat_iff.mp h with he | hstart
    · exact ⟨j + 1, by rw [he, List.append_assoc, ← List.replicate_succ']⟩
    · exact ih hstart

lemma transfers_of_sane (hplayed : P.Played m acts) (hfresh : P.Fresh m capacity)
    (hsane : m.Sane) : P.Transfers m acts := by
  have hfed := fed hplayed hfresh hsane
  have hdrawn := drawn hplayed hfresh hsane
  obtain ⟨j, hanswers, hall⟩ := answers_eq hplayed hfresh hsane
  have hstart := (List.prefix_append _ _).trans (hfed.taken hplayed hfresh hsane)
  have hrounds : m.rounds P acts <+:
      ((m.history P.channel acts).filterMap Deed.taken?).map (fun v => .visited (.ok v)) ++
        List.replicate j .finished := by
    have happend := hdrawn.answers
    rw [hanswers, List.map_append, List.map_map, List.map_replicate] at happend
    exact happend ▸ List.prefix_append _ _
  have hvisits : ∀ values : List Value, .finished ∉ values.map fun v => Round.visited (.ok v) := by
    intro values hmem
    obtain ⟨v, -, hv⟩ := List.mem_map.mp hmem
    cases hv
  refine ⟨?_, fun hf => ?_, fun hne hflag => ?_, hfed.unsent, hfed.closes, ?_⟩
  · have hvalues := hrounds.filterMap Round.value?
    rw [List.filterMap_append, List.filterMap_replicate_of_none rfl, List.append_nil,
      List.filterMap_map] at hvalues
    refine hvalues.trans ?_
    change ((m.history P.channel acts).filterMap Deed.taken?).filterMap (some ∘ Except.ok) <+: _
    rw [List.filterMap_eq_map]
    exact hstart.map Except.ok
  · have hj : j ≠ 0 := by
      rintro rfl
      rw [List.replicate_zero, List.append_nil] at hrounds
      exact hvisits _ (hrounds.subset hf)
    rw [hall hj] at hrounds
    exact prefix_of_finished hrounds (hvisits _) hf
  · obtain ⟨o, ho⟩ := Option.ne_none_iff_exists'.mp (mt List.getLast?_eq_none_iff.mp hne)
    have hslot := hdrawn.flag o ho
    rw [hflag] at hslot
    cases o with
    | visited v => cases hslot
    | finished => exact List.mem_of_getLast? ho
  · rintro before a behind rfl c hc hat hs
    rw [List.append_cons] at hplayed
    have hbefore := hplayed.so_far
    have hlap := (drawn hbefore.so_far hfresh hsane).lap hbefore hsane hfresh.inside
    cases hlap with
    | away h => exact absurd (h c hc hat) hs
    | turns hc' _ _ hnext hturns =>
      rw [hc] at hc'
      cases hc'
      exact ⟨_, hturns.laps, hnext⟩

/-- A pipe transfers its stream. Whatever was done before, with a channel that nobody has used yet:
when one chain sends values on it in their order and then closes it, another one ranges over it,
and nobody else uses it, the loop visits these values, in this order, and nothing else. So it is at
every moment on the way. -/
theorem transfers_of_played (p : Program) (kept : Bool) (before acts : List Act) (P : Pipe)
    (capacity : Nat) (m : Machine) (hm : m = (ofProgram p kept).after before)
    (hfresh : P.Fresh m capacity) (hplayed : P.Played m acts) (n : Nat) :
    P.Transfers m (acts.take n) := by
  have hsane : m.Sane := hm ▸ (sane_ofProgram p kept).after before
  rw [← List.take_append_drop n acts] at hplayed
  exact transfers_of_sane hplayed.so_far hfresh hsane

/-! ### A pipe at work -/

/-- Whoever is not there begins nothing. -/
lemma attempts_of_absent {ch : ChannelId} {x : ChainId}
    (h : ∀ i ≤ acts.length, (m.after (acts.take i)).chain? x = none) :
    m.attempts ch x acts = [] := by
  induction acts generalizing m with
  | nil => rfl
  | cons a acts ih =>
    have hnow : m.chain? x = none := h 0 (Nat.zero_le _)
    have hnext : (m.act a).chain? x = none := h 1 (Nat.succ_le_succ (Nat.zero_le _))
    have hattempt : m.attempt? (m.act a) ch x = none := by
      simp [attempt?, deed?, current?, hnow, hnext]
    rw [attempts, hattempt, ih fun i hi => h (i + 1) (Nat.succ_le_succ hi)]
    rfl

lemma exists_take {before behind : List Act} (h : acts = before ++ a :: behind) :
    ∃ i, before = acts.take i ∧ acts[i]? = some a := by
  refine ⟨before.length, ?_, ?_⟩
  · rw [h, List.take_left]
  · rw [h, List.getElem?_append_right (Nat.le_refl _), Nat.sub_self]
    rfl

lemma exists_take_of_append {before behind : List Act} (h : acts = before ++ behind) :
    ∃ i ≤ acts.length, before = acts.take i := by
  refine ⟨before.length, ?_, ?_⟩
  · rw [h, List.length_append]
    exact Nat.le_add_right _ _
  · rw [h, List.take_left]

/-- The first global slot holds a channel. A value is sent on it, and then it is closed. A loop
ranges over it and stores what it visits in the last slot. -/
def relay : Program where
  graph := {
    globals := 4
    nodes := #[
      { kind := .ident, slot := some 0 },
      { kind := .basicLit, payload := some (.literal (.int 7)) },
      { kind := .send, children := [⟨0⟩, ⟨1⟩], next := some ⟨3⟩ },
      { kind := .close, children := [⟨1⟩, ⟨0⟩] },
      { kind := .ident, slot := some 3 },
      { kind := .ident },
      { kind := .range, children := [⟨4⟩, ⟨5⟩, ⟨0⟩], slot := some 1, next := some ⟨6⟩,
        otherwise := some ⟨7⟩ },
      { kind := .nop }] }
  constants := #[none, some (.int 7), none, none, none, none, none, none]
  natives := .empty
  config := {}

/-- A host creates the channel and puts it into its slot. -/
def filling : List Act := [
  opening 1,
  .change (fun s => s.setSlot globalFrame 0 (.chan ⟨0⟩)) fun _ =>
    ⟨Nat.le_refl _, fun _ => .inl rfl⟩]

/-- The receiver looks for a value before there is one, and again after the channel is closed. -/
def relaying : List Act :=
  [.host (.atNode ⟨2⟩) (.atNode ⟨2⟩), .host (.atNode ⟨6⟩) (.atNode ⟨6⟩)] ++
    [1, 1, 0, 0, 0, 1, 1, 1, 1, 0, 0, 1, 1, 1, 1, 1].map fun i => .move (.run ⟨i⟩)

/-- The first chain sends, and the second one ranges. -/
def ofRelay : Pipe where
  channel := ⟨0⟩
  values := [.int 7]
  producer := ⟨0⟩
  consumer := ⟨1⟩
  frame := globalFrame
  node := ⟨6⟩
  slot := 1

lemma shaped_ofRelay {s : Store} (h : s.frameSize globalFrame = 4) :
    ofRelay.Shaped relay s where
  node := ⟨_, rfl, rfl, rfl⟩
  room := by
    rw [ofRelay, h]
    decide
  destinations := by
    refine ⟨globalFrame, 3, ?_, fun _ => by decide, .inl ⟨⟨5⟩, _, rfl, rfl, rfl⟩⟩
    exact ⟨⟨4⟩, _, rfl, rfl, by decide, rfl, rfl, h ▸ by decide⟩

lemma fresh_ofRelay : ofRelay.Fresh ((ofProgram relay true).after filling) 1 where
  parties := by decide
  inside := Nat.zero_lt_one
  empty := rfl
  idle _ := rfl
  outside _ hc := by cases hc

lemma played_ofRelay : ofRelay.Played ((ofProgram relay true).after filling) relaying where
  producer := ⟨[], rfl⟩
  consumer before a behind h b hb := by
    obtain ⟨i, rfl, ha⟩ := exists_take h
    have hi : i < 18 := (List.getElem?_eq_some_iff.mp ha).1
    interval_cases i <;> cases ha <;> first | (cases hb; done) | (cases hb; exact ⟨rfl, rfl⟩)
  others x hx hy := by
    have hle : 2 ≤ x.index := by
      obtain ⟨i⟩ := x
      by_contra hlt
      obtain rfl | rfl : i = 0 ∨ i = 1 := by
        change ¬2 ≤ i at hlt
        omega
      · exact hx rfl
      · exact hy rfl
    refine attempts_of_absent fun i hi => Array.getElem?_eq_none (Nat.le_trans ?_ hle)
    change i ≤ 18 at hi
    interval_cases i <;> decide
  host a ha := by
    obtain ⟨i, hi⟩ := List.mem_iff_getElem?.mp ha
    have hlt : i < 18 := (List.getElem?_eq_some_iff.mp hi).1
    interval_cases i <;> cases hi <;> exact Act.noConfusion
  shape before behind h _ := by
    obtain ⟨i, hi, rfl⟩ := exists_take_of_append h
    change i ≤ 18 at hi
    interval_cases i <;> exact shaped_ofRelay rfl
  ranges before behind h _ _ _ _ := by
    obtain ⟨i, hi, rfl⟩ := exists_take_of_append h
    change i ≤ 18 at hi
    interval_cases i <;> rfl
  entry before behind h _ _ _ _ hrounds := by
    obtain ⟨i, hi, rfl⟩ := exists_take_of_append h
    change i ≤ 18 at hi
    interval_cases i <;> first | exact .inl rfl | cases hrounds
  state before a behind h hne i hi := by
    obtain ⟨j, rfl, ha⟩ := exists_take h
    have hj : j < 18 := (List.getElem?_eq_some_iff.mp ha).1
    interval_cases j <;> cases ha <;> first
      | exact absurd ⟨rfl, rfl⟩ hne
      | (rcases hi with rfl | rfl <;> rfl)

theorem transfers_of_relaying : Program.load relay.graph .empty {} = .ok relay ∧
    ofRelay.Fresh ((ofProgram relay true).after filling) 1 ∧
    ofRelay.Played ((ofProgram relay true).after filling) relaying ∧
    (∀ n, ofRelay.Transfers ((ofProgram relay true).after filling) (relaying.take n)) ∧
    ((ofProgram relay true).after filling).rounds ofRelay relaying =
      [.visited (.ok (.int 7)), .finished] :=
  ⟨rfl, fresh_ofRelay, played_ofRelay, transfers_of_played relay true filling relaying ofRelay 1 _
    rfl fresh_ofRelay played_ofRelay, rfl⟩

end Pipe

end Flowgraph
