import Mathlib.Data.List.Induction
import Flowgraph.Proofs.Streams.Course

/-!
# What is fed into a pipe

The producer begins its sends one after the other, so at every moment all that it has begun has been
sent, but for the last one. It closes the channel when everything has been sent. Nobody else sends
or closes, so no send fails and the close succeeds.
-/

namespace Flowgraph

/-- What is not the answer of a receive. -/
def Deed.other? : Deed → Option Deed
  | received _ => none
  | d => some d

namespace Pipe

variable {P : Pipe} {m : Machine} {capacity : Nat} {acts : List Act} {a : Act} {x : ChainId}

/-! ### Parts of runs -/

/-- Who keeps to the rules has kept to them so far. -/
lemma Played.so_far {acts' : List Act} (h : P.Played m (acts ++ acts')) : P.Played m acts where
  producer := by
    have hall := h.producer
    rw [Machine.attempts_append] at hall
    exact (List.prefix_append _ _).trans hall
  consumer before a behind he b hb := by
    refine h.consumer before a (behind ++ acts') ?_ b hb
    rw [he, List.append_assoc, List.cons_append]
  others x hx hy := by
    have hall := h.others x hx hy
    rw [Machine.attempts_append] at hall
    exact (List.append_eq_nil_iff.mp hall).1
  host a ha := h.host a (List.mem_append_left _ ha)
  shape before behind he := h.shape before (behind ++ acts') (by rw [he, List.append_assoc])
  ranges before behind he := h.ranges before (behind ++ acts') (by rw [he, List.append_assoc])
  entry before behind he := h.entry before (behind ++ acts') (by rw [he, List.append_assoc])
  state before a behind he := by
    refine h.state before a (behind ++ acts') ?_
    rw [he, List.append_assoc, List.cons_append]

/-! ### The rest of the machine -/

/-- Whoever begins nothing on the channel does nothing there. -/
lemma deed?_of_attempt? (hsane : m.Sane) (hch : P.channel.index < m.store.channels.size)
    (h : m.current? P.channel x = none) (ha : m.attempt? (m.act a) P.channel x = none) :
    m.deed? (m.act a) P.channel x = none ∧ (m.act a).current? P.channel x = none := by
  have hcourse := Machine.course hsane hch a x
  rw [ha] at hcourse
  generalize hd : m.deed? (m.act a) P.channel x = d at hcourse
  cases hcourse with
  | idle _ h' => exact ⟨rfl, h'⟩
  | sending h'' => simp [h] at h''
  | sent h'' => simp [h] at h''
  | unsent h'' => simp [h] at h''
  | receiving hc hs => simp [Machine.current?_eq hc, hs, Stage.attempt?] at h
  | received hc hs => simp [Machine.current?_eq hc, hs, Stage.attempt?] at h

/-- Whoever only receives does nothing else. -/
lemma deed?_of_receives (hsane : m.Sane) (hch : P.channel.index < m.store.channels.size)
    (h : ∀ b, m.current? P.channel x = some b → b = .receive)
    (ha : ∀ b, m.attempt? (m.act a) P.channel x = some b → b = .receive) :
    (∀ d, m.deed? (m.act a) P.channel x = some d → ∃ v, d = .received v) ∧
      ∀ b, (m.act a).current? P.channel x = some b → b = .receive := by
  have hcourse := Machine.course hsane hch a x
  generalize hb : m.attempt? (m.act a) P.channel x = b at hcourse ha
  generalize hd : m.deed? (m.act a) P.channel x = d at hcourse
  cases hcourse with
  | idle _ h' =>
    refine ⟨fun d hd => (by cases hd), fun b hb => ?_⟩
    rw [h'] at hb
    cases hb
  | begins _ h' =>
    refine ⟨fun d hd => (by cases hd), fun b hb => ?_⟩
    rw [h'] at hb
    cases hb
    exact ha _ rfl
  | closes => cases ha _ rfl
  | sending h' => cases h _ h'
  | sent h' => cases h _ h'
  | unsent h' => cases h _ h'
  | receiving hc hs phase' hc' =>
    refine ⟨fun d hd => (by cases hd), fun b hb => ?_⟩
    rw [Machine.current?_eq hc', Stage.attempt?, if_pos rfl] at hb
    exact (Option.some.inj hb).symm
  | received hc hs v hc' =>
    refine ⟨fun d hd => ⟨v, (Option.some.inj hd).symm⟩, fun b hb => ?_⟩
    rw [Machine.current?_eq hc'] at hb
    cases hb

/-- Whoever is neither the producer nor the consumer begins nothing. -/
lemma Played.attempt?_of_other (h : P.Played m (acts ++ [a])) (hx : x ≠ P.producer)
    (hy : x ≠ P.consumer) : (m.after acts).attempt? ((m.after acts).act a) P.channel x = none := by
  have hnone := h.others x hx hy
  rw [Machine.attempts_concat] at hnone
  exact Option.toList_eq_nil_iff.mp (List.append_eq_nil_iff.mp hnone).2

/-! ### The producer -/

/-- How far the producer of a pipe has come by acts. -/
structure Fed (P : Pipe) (m : Machine) (acts : List Act) : Prop where
  /-- All that the producer has begun to send has been sent, but for what it is about to send. -/
  begun : (m.attempts P.channel P.producer acts).filterMap Attempt.value? =
    (m.history P.channel acts).filterMap Deed.sent? ++
      (((m.after acts).current? P.channel P.producer).bind Attempt.value?).toList
  closed : ((m.after acts).store.channel P.channel).closed = true ↔
    .close ∈ m.attempts P.channel P.producer acts
  idle : ((m.after acts).store.channel P.channel).closed = true →
    (m.after acts).current? P.channel P.producer = none
  sends : ∀ b, (m.after acts).current? P.channel P.producer = some b → ∃ v, b = .send v
  receives : ∀ b, (m.after acts).current? P.channel P.consumer = some b → b = .receive
  others : ∀ x, x ≠ P.producer → x ≠ P.consumer → (m.after acts).current? P.channel x = none
  /-- No send fails. -/
  unsent : ∀ v e, .unsent v e ∉ m.history P.channel acts
  /-- The close succeeds. -/
  closes : ∀ e, .closed (.error e) ∉ m.history P.channel acts

lemma Fresh.fed (h : P.Fresh m capacity) : P.Fed m [] where
  begun := by
    change _ = [] ++ ((m.current? P.channel P.producer).bind Attempt.value?).toList
    rw [h.idle]
    rfl
  closed := by
    change (m.store.channel P.channel).closed = true ↔ _
    rw [h.empty]
    exact ⟨fun h => Bool.noConfusion h, fun h => absurd h List.not_mem_nil⟩
  idle _ := h.idle _
  sends b hb := by
    change m.current? P.channel P.producer = some b at hb
    rw [h.idle] at hb
    cases hb
  receives b hb := by
    change m.current? P.channel P.consumer = some b at hb
    rw [h.idle] at hb
    cases hb
  others x _ _ := h.idle x
  unsent _ _ := List.not_mem_nil
  closes _ := List.not_mem_nil

/-- Only the producer does anything but to receive. -/
lemma Fed.filterMap_deeds {β : Type} {g : Deed → Option β} (h : P.Fed m acts)
    (hplayed : P.Played m (acts ++ [a])) (hsane : m.Sane)
    (hch : P.channel.index < m.store.channels.size) (hg : ∀ v, g (.received v) = none) :
    ((m.after acts).deeds P.channel a).filterMap g =
      (((m.after acts).deed? ((m.after acts).act a) P.channel P.producer).bind g).toList := by
  have hch' := Nat.lt_of_lt_of_le hch (Machine.size_after hsane acts)
  refine Machine.filterMap_deeds (hsane.after acts) (hplayed.host a (by simp)) fun x hx => ?_
  by_cases hy : x = P.consumer
  · subst hy
    have hreceives := (deed?_of_receives (hsane.after acts) hch' h.receives fun b hb =>
      (hplayed.consumer acts a [] rfl b hb).1).1
    cases hd : (m.after acts).deed? ((m.after acts).act a) P.channel P.consumer with
    | none => rfl
    | some d =>
      obtain ⟨v, rfl⟩ := hreceives d hd
      exact hg v
  · have hnothing := deed?_of_attempt? (hsane.after acts) hch' (h.others x hx hy)
      (hplayed.attempt?_of_other hx hy)
    rw [hnothing.1]
    rfl

/-- What the producer has begun once the channel is closed. -/
lemma Played.complete (h : P.Played m acts)
    (hclose : .close ∈ m.attempts P.channel P.producer acts) :
    m.attempts P.channel P.producer acts = P.values.map .send ++ [.close] := by
  rcases List.prefix_concat_iff.mp h.producer with heq | hstart
  · exact heq
  · obtain ⟨v, -, hv⟩ := List.mem_map.mp (hstart.subset hclose)
    cases hv

/-- After the close, the producer begins nothing more. -/
lemma Played.attempt?_of_close (h : P.Played m (acts ++ [a]))
    (hclose : .close ∈ m.attempts P.channel P.producer acts) :
    (m.after acts).attempt? ((m.after acts).act a) P.channel P.producer = none := by
  have hlonger := h.producer.length_le
  have hcomplete := congrArg List.length (h.so_far.complete hclose)
  rw [Machine.attempts_concat, List.length_append, hcomplete] at hlonger
  cases hb : (m.after acts).attempt? ((m.after acts).act a) P.channel P.producer with
  | none => rfl
  | some b =>
    rw [hb] at hlonger
    exact absurd hlonger (Nat.not_succ_le_self _)

/-- All that the producer begins is a send or a close. -/
lemma Played.attempt? (h : P.Played m (acts ++ [a])) {b : Attempt}
    (hb : (m.after acts).attempt? ((m.after acts).act a) P.channel P.producer = some b) :
    (∃ v, b = .send v) ∨ b = .close := by
  have hmem : b ∈ m.attempts P.channel P.producer (acts ++ [a]) := by
    rw [Machine.attempts_concat, hb]
    exact List.mem_append_right _ (List.mem_singleton_self b)
  rcases List.mem_append.mp (h.producer.subset hmem) with hsend | hclose
  · obtain ⟨v, -, rfl⟩ := List.mem_map.mp hsend
    exact .inl ⟨v, rfl⟩
  · exact .inr (List.mem_singleton.mp hclose)

/-- What is not a receive is done by the producer. -/
lemma Fed.mem_deeds (h : P.Fed m acts) (hplayed : P.Played m (acts ++ [a])) (hsane : m.Sane)
    (hch : P.channel.index < m.store.channels.size) {d : Deed} (hd : ∀ v, d ≠ .received v) :
    d ∈ (m.after acts).deeds P.channel a ↔
      (m.after acts).deed? ((m.after acts).act a) P.channel P.producer = some d := by
  have hother : ∀ {e e' : Deed}, e.other? = some e' → e = e' := by
    intro e e' he
    cases e <;> cases he <;> rfl
  have hd' : d.other? = some d := by
    cases d with
    | received v => exact absurd rfl (hd v)
    | _ => rfl
  have hmem : d ∈ (m.after acts).deeds P.channel a ↔
      d ∈ ((m.after acts).deeds P.channel a).filterMap Deed.other? := by
    rw [List.mem_filterMap]
    exact ⟨fun h => ⟨d, h, hd'⟩, fun ⟨_, h, he⟩ => hother he ▸ h⟩
  rw [hmem, h.filterMap_deeds hplayed hsane hch fun _ => rfl, Option.mem_toList,
    Option.bind_eq_some_iff]
  exact ⟨fun ⟨_, h, he⟩ => hother he ▸ h, fun h => ⟨d, h, hd'⟩⟩

lemma ne_close_of_current? {b : Attempt} (h : m.current? P.channel x = some b) : b ≠ .close := by
  obtain ⟨c, -, hb⟩ := Option.bind_eq_some_iff.mp h
  rintro rfl
  cases hs : c.stage <;> simp [hs, Stage.attempt?] at hb

/-- A close that fails finds the channel closed. -/
lemma closed_of_close_error {c c' : Channel} {ds : List Deed} (h : c.Does ds c') {e : Stop}
    (he : .closed (.error e) ∈ ds) : c.closed = true := by
  cases h
  case closeAgain hc => exact hc
  all_goals simp at he

/-- What an act means to the producer of a pipe: it never receives, and whatever it sends is
taken. -/
inductive Feeds (P : Pipe) (m m' : Machine) : Option Attempt → Option Deed → Prop
  | idle (h : m.current? P.channel P.producer = none)
    (h' : m'.current? P.channel P.producer = none) : Feeds P m m' none none
  | begins {v : Value} (h : m.current? P.channel P.producer = none)
    (h' : m'.current? P.channel P.producer = some (.send v)) : Feeds P m m' (some (.send v)) none
  | closes (outcome : Except Stop Unit) (h : m.current? P.channel P.producer = none)
    (h' : m'.current? P.channel P.producer = none) :
    Feeds P m m' (some .close) (some (.closed outcome))
  | sending {v : Value} (h : m.current? P.channel P.producer = some (.send v))
    (h' : m'.current? P.channel P.producer = some (.send v)) : Feeds P m m' none none
  | sent {v : Value} (h : m.current? P.channel P.producer = some (.send v))
    (h' : m'.current? P.channel P.producer = none) : Feeds P m m' none (some (.sent v))

/-- Every act means one of these to the producer. -/
lemma Fed.feeds (h : P.Fed m acts) (hplayed : P.Played m (acts ++ [a])) (hsane : m.Sane)
    (hch : P.channel.index < m.store.channels.size) :
    P.Feeds (m.after acts) ((m.after acts).act a)
      ((m.after acts).attempt? ((m.after acts).act a) P.channel P.producer)
      ((m.after acts).deed? ((m.after acts).act a) P.channel P.producer) := by
  have hsane' := hsane.after acts
  have hch' := Nat.lt_of_lt_of_le hch (Machine.size_after hsane acts)
  have hdoes := (Machine.changes_act hsane' a P.channel).does hch'
  have hattempt := @hplayed.attempt?
  have hmem := @Fed.mem_deeds P m acts a h hplayed hsane hch
  have hcourse := Machine.course hsane' hch' a P.producer
  have hreceiving : ∀ {c purpose phase}, (m.after acts).chain? P.producer = some c →
      c.stage ≠ .receive P.channel purpose phase := by
    intro c purpose phase hc hs
    obtain ⟨v, hv⟩ := h.sends .receive (by simp [Machine.current?_eq hc, hs, Stage.attempt?])
    cases hv
  generalize (m.after acts).attempt? ((m.after acts).act a) P.channel P.producer = b at *
  generalize (m.after acts).deed? ((m.after acts).act a) P.channel P.producer = d at *
  cases hcourse with
  | idle hc hc' => exact .idle hc hc'
  | begins hc hc' =>
    obtain ⟨v, rfl⟩ := (hattempt rfl).resolve_right (ne_close_of_current? hc')
    exact .begins hc hc'
  | closes outcome hc hc' => exact .closes outcome hc hc'
  | sending hc hc' => exact .sending hc hc'
  | sent hc hc' => exact .sent hc hc'
  | unsent hc =>
    -- a send fails only on a closed channel, and then the producer is about to do nothing
    have hclosed := (hdoes.unsent ((hmem fun _ => Deed.noConfusion).mpr rfl)).1
    rw [h.idle hclosed] at hc
    cases hc
  | receiving hc hs => exact absurd hs (hreceiving hc)
  | received hc hs => exact absurd hs (hreceiving hc)

/-- With one more act, the producer is still on its way. -/
lemma Fed.act (h : P.Fed m acts) (hplayed : P.Played m (acts ++ [a])) (hsane : m.Sane)
    (hch : P.channel.index < m.store.channels.size) : P.Fed m (acts ++ [a]) := by
  have hsane' := hsane.after acts
  have hch' := Nat.lt_of_lt_of_le hch (Machine.size_after hsane acts)
  have hdoes := (Machine.changes_act hsane' a P.channel).does hch'
  have hclose := hplayed.attempt?_of_close
  have hsent := h.filterMap_deeds (g := Deed.sent?) hplayed hsane hch fun _ => rfl
  have hmem := @Fed.mem_deeds P m acts a h hplayed hsane hch
  have hfeeds := h.feeds hplayed hsane hch
  have hclosed := hdoes.closed
  rw [h.filterMap_deeds hplayed hsane hch fun _ => rfl] at hclosed
  constructor
  case receives =>
    rw [Machine.after_concat]
    exact (deed?_of_receives hsane' hch' h.receives fun b hb =>
      (hplayed.consumer acts a [] rfl b hb).1).2
  case others =>
    intro x hx hy
    rw [Machine.after_concat]
    exact (deed?_of_attempt? hsane' hch' (h.others x hx hy) (hplayed.attempt?_of_other hx hy)).2
  all_goals
    generalize (m.after acts).deed? ((m.after acts).act a) P.channel P.producer = d at *
    generalize hb : (m.after acts).attempt? ((m.after acts).act a) P.channel P.producer = b at *
  case begun =>
    rw [Machine.attempts_concat, Machine.history_concat, Machine.after_concat, hb,
      List.filterMap_append, List.filterMap_append, h.begun, hsent, List.append_assoc,
      List.append_assoc]
    refine congrArg _ ?_
    cases hfeeds with
    | idle hc hc' | begins hc hc' | sending hc hc' => simp [hc, hc', Attempt.value?]
    | closes outcome hc hc' | sent hc hc' => simp [hc, hc', Attempt.value?, Deed.sent?]
  case closed =>
    rw [Machine.attempts_concat, Machine.after_concat, hb, hclosed, Bool.or_eq_true, h.closed,
      List.mem_append]
    refine or_congr_right ?_
    cases hfeeds <;> simp [Deed.closed?]
  case idle =>
    rw [Machine.after_concat, hclosed, Bool.or_eq_true]
    intro hor
    cases hfeeds with
    | idle _ hc' | closes _ _ hc' | sent _ hc' => exact hc'
    | begins => cases hclose (h.closed.mp (hor.resolve_right Bool.false_ne_true))
    | sending hc =>
      rw [h.idle (hor.resolve_right Bool.false_ne_true)] at hc
      cases hc
  case sends =>
    rw [Machine.after_concat]
    intro b' hb'
    cases hfeeds with
    | idle _ hc' | closes _ _ hc' | sent _ hc' => simp [hc'] at hb'
    | begins _ hc' | sending _ hc' => exact ⟨_, (Option.some.inj (hc'.symm.trans hb')).symm⟩
  case unsent =>
    intro v e hin
    rw [Machine.history_concat, List.mem_append] at hin
    refine hin.elim (h.unsent v e) fun hin => ?_
    cases (hmem fun _ => Deed.noConfusion).mp hin
    cases hfeeds
  case closes =>
    intro e hin
    rw [Machine.history_concat, List.mem_append] at hin
    refine hin.elim (h.closes e) fun hin => ?_
    have hnone := hclose (h.closed.mp (closed_of_close_error hdoes hin))
    cases (hmem fun _ => Deed.noConfusion).mp hin
    cases hfeeds
    cases hnone

/-- The producer of a pipe is on its way, at every moment. -/
lemma fed (hplayed : P.Played m acts) (hfresh : P.Fresh m capacity) (hsane : m.Sane) :
    P.Fed m acts := by
  induction acts using List.reverseRecOn with
  | nil => exact hfresh.fed
  | append_singleton acts a ih => exact (ih hplayed.so_far).act hplayed hsane hfresh.inside

end Pipe

end Flowgraph
