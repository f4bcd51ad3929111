import Flowgraph.Proofs.Spawn.Layout

/-!
# When a function can be called

A function takes as many arguments as it declares parameters, and its frame has to have the slots
that they and the receiver go to. Then the frame is filled from left to right, so that the last one
stays where a slot is declared twice; otherwise nothing is called.
-/

namespace Flowgraph

/-! ### The last value in a slot -/

lemma getElem?_fill_last {slots : Array Value} {before after : List (Nat × Value)} {i : Nat}
    {v : Value} (hafter : i ∉ after.map Prod.fst) (hi : i < slots.size) :
    (fill slots (before ++ (i, v) :: after))[i]? = some v := by
  induction before generalizing slots with
  | nil =>
    rw [List.nil_append, fill_cons, getElem?_fill_of_notMem hafter]
    exact Array.getElem?_setIfInBounds_self_of_lt hi
  | cons x before ih =>
    rw [List.cons_append, fill_cons]
    exact ih (by rw [Array.size_setIfInBounds]; exact hi)

namespace FuncDef

variable {d : FuncDef} {receiver : Option Value} {args : List Value} {slots : Array Value}

/-- A receiver and arguments fit a function: there are as many arguments as parameters, and the
frame has a slot for each of them, and one for the receiver if there is one to be put there. -/
structure Fits (d : FuncDef) (receiver : Option Value) (args : List Value) : Prop where
  count : args.length = d.params.length
  params : ∀ i ∈ d.params, i < d.frameSize
  subject : ∀ i, d.receiver = some i → receiver.isSome → i < d.frameSize

/-- The slots of a frame that was filled with a receiver and arguments, whatever slots they
share. -/
structure Fills (d : FuncDef) (receiver : Option Value) (args : List Value)
    (slots : Array Value) : Prop where
  size : slots.size = d.frameSize
  /-- A later parameter wins over an earlier one. -/
  arguments : ∀ k i : Nat, d.params[k]? = some i → (∀ k' > k, d.params[k']? ≠ some i) →
    slots[i]? = args[k]?
  /-- A parameter wins over the receiver. -/
  subject : ∀ (i : Nat) v, d.receiver = some i → receiver = some v → i ∉ d.params →
    slots[i]? = some v
  others : ∀ i : Nat, i < d.frameSize → (d.receiver = some i → receiver = none) → i ∉ d.params →
    slots[i]? = some .nil

lemma Fits.lt (h : d.Fits receiver args) : ∀ x ∈ d.given receiver args, x.1 < d.frameSize := by
  intro x hx
  rcases List.mem_append.mp hx with hx | hx
  · obtain ⟨hi, hv⟩ := List.of_mem_zip (a := x.1) (b := x.2) hx
    refine h.subject x.1 (Option.mem_toList.mp hi) ?_
    rw [Option.mem_toList.mp hv]
    rfl
  · exact h.params x.1 (List.of_mem_zip (a := x.1) (b := x.2) hx).1

/-- What has slots in the frame fits it. -/
lemma fits_of_lt (hcount : args.length = d.params.length)
    (h : ∀ x ∈ d.given receiver args, x.1 < d.frameSize) : d.Fits receiver args := by
  refine ⟨hcount, fun i hi => ?_, fun i hi hr => ?_⟩
  · obtain ⟨k, hk, rfl⟩ := List.getElem_of_mem hi
    exact h _ (mem_given_param (List.getElem?_eq_getElem hk)
      (List.getElem?_eq_getElem (hcount ▸ hk)))
  · obtain ⟨v, hv⟩ := Option.isSome_iff_exists.mp hr
    exact h _ (mem_given_receiver hi hv)

/-- A frame whose slots are filled from left to right. -/
lemma Fits.fills (h : d.Fits receiver args) : d.Fills receiver args
    (fill (Array.replicate d.frameSize .nil) (d.given receiver args)) := by
  refine ⟨?size, ?arguments, ?subject, ?others⟩
  case size => rw [size_fill, Array.size_replicate]
  case arguments =>
    intro k i hi hlater
    have hk : k < d.params.length := (List.getElem?_eq_some_iff.mp hi).1
    have hk' : k < args.length := h.count ▸ hk
    have hz : k < (d.params.zip args).length := by rw [List.length_zip]; omega
    have hat : (d.params.zip args)[k] = (i, args[k]) := by
      rw [List.getElem_zip, (List.getElem?_eq_some_iff.mp hi).2]
    have hsplit : d.given receiver args =
        (d.receiver.toList.zip receiver.toList ++ (d.params.zip args).take k) ++
          (i, args[k]) :: (d.params.zip args).drop (k + 1) := by
      rw [List.append_assoc, ← hat, ← List.drop_eq_getElem_cons hz, List.take_append_drop, given]
    have hafter : i ∉ ((d.params.zip args).drop (k + 1)).map Prod.fst := by
      rw [List.map_drop, List.map_fst_zip (Nat.le_of_eq h.count.symm)]
      intro hmem
      obtain ⟨j, hj⟩ := List.mem_iff_getElem?.mp hmem
      rw [List.getElem?_drop] at hj
      exact hlater (k + 1 + j) (by omega) hj
    rw [List.getElem?_eq_getElem hk', hsplit]
    refine getElem?_fill_last hafter ?_
    rw [Array.size_replicate]
    exact h.params i (List.mem_of_getElem? hi)
  case subject =>
    intro i v hi hv hparams
    have hafter : i ∉ (d.params.zip args).map Prod.fst := by
      rwa [List.map_fst_zip (Nat.le_of_eq h.count.symm)]
    have hgiven : d.given receiver args = [] ++ (i, v) :: d.params.zip args := by
      rw [given, hi, hv]
      rfl
    rw [hgiven]
    refine getElem?_fill_last hafter ?_
    rw [Array.size_replicate]
    exact h.subject i hi (by rw [hv]; rfl)
  case others =>
    intro i hlt hr hi
    rw [getElem?_fill_of_notMem (notMem_given hr hi), Array.getElem?_replicate, if_pos hlt]

end FuncDef

/-! ### Activating a function -/

namespace Program

variable {p : Program} {decl : NodeId} {parent : FrameId} {receiver : Option Value}
  {args : List Value} {s : Store} {d : FuncDef}

/-- Slots of the newest frame are all filled, or one of them is missing. -/
lemma forM_setSlot (s : Store) (parent : FrameId) (missing : Stop) (slots : Array Value)
    (l : List (Nat × Value)) :
    ((∀ x ∈ l, x.1 < slots.size) ∧
      (l.forM fun x => Op.setSlot s.nextFrame x.1 x.2 missing) (s.withFrame slots parent)
        = .ok () (s.withFrame (fill slots l) parent)) ∨
    (∃ x ∈ l, slots.size ≤ x.1) ∧ ∃ s',
      (l.forM fun x => Op.setSlot s.nextFrame x.1 x.2 missing) (s.withFrame slots parent)
        = .error missing s' := by
  induction l generalizing slots with
  | nil => exact .inl ⟨fun x hx => absurd hx List.not_mem_nil, rfl⟩
  | cons x l ih =>
    have hcons : ((x :: l).forM fun x => Op.setSlot s.nextFrame x.1 x.2 missing) =
        (Op.setSlot s.nextFrame x.1 x.2 missing >>= fun _ =>
          l.forM fun x => Op.setSlot s.nextFrame x.1 x.2 missing) := rfl
    rw [hcons, Op.bind_apply, Op.setSlot, Op.bind_apply, Op.get_apply]
    dsimp only
    rw [Store.frameSize_nextFrame]
    by_cases hlt : x.1 < slots.size
    · have hrest := ih (slots.setIfInBounds x.1 x.2)
      rw [Array.size_setIfInBounds] at hrest
      rw [if_pos hlt, Op.modify_apply, Store.setSlot_nextFrame]
      rcases hrest with ⟨hall, hrun⟩ | ⟨⟨y, hy, hge⟩, hrun⟩
      · exact .inl ⟨List.forall_mem_cons.mpr ⟨hlt, hall⟩, hrun⟩
      · exact .inr ⟨⟨y, List.mem_cons_of_mem x hy, hge⟩, hrun⟩
    · rw [if_neg hlt]
      exact .inr ⟨⟨x, List.mem_cons_self, Nat.le_of_not_lt hlt⟩, _, rfl⟩

/-- A function whose frame could be made is activated when the receiver and the arguments fit
it. -/
lemma activate_of_fits (hd : p.definition decl = .ok d) (hsize : d.frameSize ≤ maxValues)
    (h : d.Fits receiver args) : p.activate decl parent receiver args s =
      .ok (.declared ⟨s.nextFrame, decl, d.entry, d.results⟩)
        (s.withFrame (fill (Array.replicate d.frameSize .nil) (d.given receiver args)) parent) := by
  rw [activate_eq, Op.except_bind_apply, hd]
  dsimp only
  rw [if_neg (Decidable.not_not.mpr h.count)]
  rw [Op.bind_apply, newFrame_apply, if_pos hsize]
  dsimp only
  rw [Op.bind_apply]
  have hlt := h.lt
  rcases forM_setSlot s parent (.malformed decl .parameterBeyondFrame)
    (.replicate d.frameSize .nil) (d.given receiver args) with ⟨-, hrun⟩ | ⟨⟨x, hx, hge⟩, -⟩
  · rw [hrun]
    rfl
  · rw [Array.size_replicate] at hge
    exact absurd (hlt x hx) (Nat.not_lt_of_le hge)

/-- It is not activated when they do not. -/
lemma activate_of_not_fits (hd : p.definition decl = .ok d) (hsize : d.frameSize ≤ maxValues)
    (h : ¬d.Fits receiver args) (parent : FrameId) (s : Store) : ∃ defect s',
      p.activate decl parent receiver args s = .error (.malformed decl defect) s' := by
  rw [activate_eq, Op.except_bind_apply, hd]
  dsimp only
  by_cases hcount : args.length = d.params.length
  · rw [if_neg (Decidable.not_not.mpr hcount)]
    rw [Op.bind_apply, newFrame_apply, if_pos hsize]
    dsimp only
    rw [Op.bind_apply]
    rcases forM_setSlot s parent (.malformed decl .parameterBeyondFrame)
      (.replicate d.frameSize .nil) (d.given receiver args) with ⟨hall, -⟩ | ⟨-, s', hrun⟩
    · rw [Array.size_replicate] at hall
      exact absurd (FuncDef.fits_of_lt hcount hall) h
    · exact ⟨.parameterBeyondFrame, s', by rw [hrun]⟩
  · rw [if_pos hcount]
    exact ⟨.argumentCount, s, rfl⟩

/-- No frame is made that is larger than any memory. -/
lemma activate_of_oversized (hd : p.definition decl = .ok d) (hsize : maxValues < d.frameSize)
    (hcount : args.length = d.params.length) :
    p.activate decl parent receiver args s = .error .tooLarge s := by
  rw [activate_eq, Op.except_bind_apply, hd]
  dsimp only
  rw [if_neg (Decidable.not_not.mpr hcount)]
  rw [Op.bind_apply, newFrame_apply, if_neg (Nat.not_le_of_lt hsize)]

end Program

end Flowgraph
