import Flowgraph.Proofs.Close.Deeds

/-!
# Channels as queues

Whatever is done on a channel: values are received in the order in which they were sent, the first
close succeeds and no other, and once the channel is closed it stays closed. A receive finds the
channel drained only after everything that was sent has been received.
-/

namespace Flowgraph

namespace Channel

variable {c c' c'' : Channel} {ds ds' : List Deed}

/-! ### At once -/

lemma Does.capacity (h : c.Does ds c') : c'.capacity = c.capacity := by
  cases h <;> rfl

/-- What was buffered and sent has been received, or is buffered. -/
lemma Does.order (h : c.Does ds c') :
    c.buffer ++ ds.filterMap Deed.sent? = ds.filterMap Deed.taken? ++ c'.buffer := by
  cases h with
  | push => rfl
  | pop hb =>
    rw [hb]
    exact List.append_nil _
  | pass _ _ hb v =>
    rw [hb]
    rfl
  | _ => exact List.append_nil _

lemma Does.fits (h : c.Does ds c') (hc : c.buffer.length ≤ c.capacity) :
    c'.buffer.length ≤ c'.capacity := by
  cases h with
  | push hroom v =>
    have hlt : c.buffer.length < c.capacity := of_decide_eq_true hroom
    rw [List.length_append]
    exact hlt
  | pop hb =>
    rw [hb] at hc
    exact Nat.le_of_succ_le hc
  | _ => exact hc

/-- A channel is closed when it was closed before, or has been closed now. -/
lemma Does.closed (h : c.Does ds c') :
    c'.closed = (c.closed || !(ds.filterMap Deed.closed?).isEmpty) := by
  cases h with
  | close hc => rw [hc]; rfl
  | closeAgain hc => rw [hc]; rfl
  | _ => exact (Bool.or_false _).symm

lemma Does.stays (h : c.Does ds c') (hc : c.closed = true) : c'.closed = true := by
  rw [h.closed, hc, Bool.true_or]

/-- Sends fail only because the channel is closed. -/
lemma Does.unsent (h : c.Does ds c') {v : Value} {e : Stop} (hd : .unsent v e ∈ ds) :
    c.closed = true ∧ e = .fault .sendOnClosed := by
  cases h
  case refuse hc w =>
    cases List.mem_singleton.mp hd
    exact ⟨hc, rfl⟩
  all_goals simp at hd

/-- A closed channel takes a value only into its buffer. -/
lemma Does.sent (h : c.Does ds c') (hc : c.closed = true) {v : Value} (hd : .sent v ∈ ds) :
    0 < c.capacity ∧ ds = [.sent v] := by
  cases h
  case push hroom w =>
    cases List.mem_singleton.mp hd
    exact ⟨Nat.zero_lt_of_lt (of_decide_eq_true hroom), rfl⟩
  case pass hopen _ w =>
    simp [hc] at hopen
  all_goals simp at hd

/-- A channel is found drained only when it is closed and empty. -/
lemma Does.drained (h : c.Does ds c') (hd : .received none ∈ ds) :
    c.closed = true ∧ c.buffer = [] ∧ c' = c ∧ ds = [.received none] := by
  cases h
  case dry hb hc => exact ⟨hb, hc, rfl, rfl⟩
  all_goals simp at hd

/-! ### One after the other -/

lemma Trace.capacity (h : c.Trace ds c') : c'.capacity = c.capacity := by
  induction h with
  | nil => rfl
  | cons h _ ih => rw [ih, h.capacity]

/-- Values are received in the order in which they were sent, and none is lost. -/
theorem Trace.order (h : c.Trace ds c') :
    c.buffer ++ ds.filterMap Deed.sent? = ds.filterMap Deed.taken? ++ c'.buffer := by
  induction h with
  | nil => exact List.append_nil _
  | @cons c c' c'' ds ds' h _ ih =>
    rw [List.filterMap_append, List.filterMap_append]
    calc c.buffer ++ (ds.filterMap Deed.sent? ++ ds'.filterMap Deed.sent?)
      _ = ds.filterMap Deed.taken? ++ c'.buffer ++ ds'.filterMap Deed.sent? := by
        rw [← List.append_assoc, h.order]
      _ = ds.filterMap Deed.taken? ++ (ds'.filterMap Deed.taken? ++ c''.buffer) := by
        rw [List.append_assoc, ih]
      _ = ds.filterMap Deed.taken? ++ ds'.filterMap Deed.taken? ++ c''.buffer :=
        (List.append_assoc _ _ _).symm

lemma Trace.closed (h : c.Trace ds c') :
    c'.closed = (c.closed || !(ds.filterMap Deed.closed?).isEmpty) := by
  induction h with
  | nil => exact (Bool.or_false _).symm
  | @cons c c' c'' ds ds' h _ ih =>
    rw [ih, h.closed, List.filterMap_append, Bool.or_assoc]
    cases ds.filterMap Deed.closed? with
    | nil => rfl
    | cons outcome outcomes => rfl

/-- The first close of an open channel succeeds, and every other close fails. -/
theorem Trace.closes (h : c.Trace ds c') (i : Nat) (outcome : Except Stop Unit)
    (ho : (ds.filterMap Deed.closed?)[i]? = some outcome) :
    outcome = if i = 0 ∧ c.closed = false then .ok () else .error (.fault .closeOfClosed) := by
  induction h generalizing i with
  | nil => cases ho
  | @cons c c' c'' ds ds' h h' ih =>
    rw [List.filterMap_append] at ho
    cases h
    case close hc =>
      cases i with
      | zero =>
        cases ho
        rw [if_pos ⟨rfl, hc⟩]
      | succ i =>
        have hlater := ih i ho
        rw [if_neg fun h => Bool.noConfusion h.2] at hlater
        rw [if_neg fun h => Nat.succ_ne_zero i h.1]
        exact hlater
    case closeAgain hc =>
      have hopen : ∀ j, ¬(j = 0 ∧ c.closed = false) := fun j h => by
        rw [hc] at h
        exact Bool.noConfusion h.2
      rw [if_neg (hopen i)]
      cases i with
      | zero =>
        cases ho
        rfl
      | succ i =>
        have hlater := ih i ho
        rwa [if_neg (hopen i)] at hlater
    all_goals exact ih i ho

end Channel

end Flowgraph
