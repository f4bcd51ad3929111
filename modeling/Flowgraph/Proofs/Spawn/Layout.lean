import Mathlib.Tactic.Common
import Mathlib.Data.List.Nodup
import Flowgraph.Proofs.Activation

/-!
# What a new frame holds

The frame of a call is filled from left to right: first the slot that the function declares for a
receiver, then the slots of its parameters. When all these slots are different, each holds what was
meant for it, and the others are nil.
-/

namespace Flowgraph

/-! ### Slots that are filled one after the other -/

/-- Overwrite slots, one after the other. -/
def fill (slots : Array Value) (l : List (Nat × Value)) : Array Value :=
  l.foldl (fun slots x => slots.setIfInBounds x.1 x.2) slots

section Fill

variable {slots : Array Value} {l : List (Nat × Value)} {i : Nat} {v : Value}

@[simp] lemma fill_nil : fill slots [] = slots := rfl

@[simp] lemma fill_cons (x : Nat × Value) :
    fill slots (x :: l) = fill (slots.setIfInBounds x.1 x.2) l := rfl

@[simp] lemma size_fill : (fill slots l).size = slots.size := by
  induction l generalizing slots with
  | nil => rfl
  | cons x l ih => rw [fill_cons, ih, Array.size_setIfInBounds]

/-- Other slots are left alone. -/
lemma getElem?_fill_of_notMem (h : i ∉ l.map Prod.fst) : (fill slots l)[i]? = slots[i]? := by
  induction l generalizing slots with
  | nil => rfl
  | cons x l ih =>
    obtain ⟨hx, hl⟩ := List.ne_and_not_mem_of_not_mem_cons h
    rw [fill_cons, ih hl, Array.getElem?_setIfInBounds, if_neg (Ne.symm hx)]

/-- A slot that is filled only once holds what it was filled with. -/
lemma getElem?_fill (hl : (l.map Prod.fst).Nodup) (hmem : (i, v) ∈ l) (hi : i < slots.size) :
    (fill slots l)[i]? = some v := by
  induction l generalizing slots with
  | nil => cases hmem
  | cons x l ih =>
    obtain ⟨hx, hl⟩ := List.nodup_cons.mp hl
    rw [fill_cons]
    rcases List.mem_cons.mp hmem with rfl | hmem
    · rw [getElem?_fill_of_notMem hx]
      exact Array.getElem?_setIfInBounds_self_of_lt hi
    · exact ih hl hmem (by rw [Array.size_setIfInBounds]; exact hi)

end Fill

/-! ### The frame of a call -/

/-- The slots of a frame in which a call begins: the receiver and the arguments are where the
function declares them, and all other slots are nil. -/
structure FuncDef.Lays (d : FuncDef) (receiver : Option Value)
    (args slots : List Value) : Prop where
  size : slots.length = d.frameSize
  subject : ∀ (i : Nat) v, d.receiver = some i → receiver = some v → slots[i]? = some v
  arguments : ∀ k i : Nat, d.params[k]? = some i → slots[i]? = args[k]?
  others : ∀ i : Nat, i < d.frameSize → (d.receiver = some i → receiver = none) → i ∉ d.params →
    slots[i]? = some .nil

namespace FuncDef

variable {d : FuncDef} {receiver : Option Value} {args : List Value}

/-- What goes to which slot. -/
def given (d : FuncDef) (receiver : Option Value) (args : List Value) : List (Nat × Value) :=
  d.receiver.toList.zip receiver.toList ++ d.params.zip args

lemma mem_given_receiver {i : Nat} {v : Value} (hi : d.receiver = some i) (hv : receiver = some v) :
    (i, v) ∈ d.given receiver args := by
  rw [given, hi, hv]
  exact List.mem_cons_self

lemma mem_given_param {k i : Nat} {v : Value} (hi : d.params[k]? = some i)
    (hv : args[k]? = some v) :
    (i, v) ∈ d.given receiver args := by
  refine List.mem_append_right _ (List.mem_of_getElem? (i := k) ?_)
  rw [List.getElem?_zip_eq_some]
  exact ⟨hi, hv⟩

lemma map_given (hlen : args.length = d.params.length) :
    ((d.given receiver args).map Prod.fst).Sublist (d.receiver.toList ++ d.params) := by
  rw [given, List.map_append, List.map_fst_zip (Nat.le_of_eq hlen.symm)]
  refine List.Sublist.append ?_ (List.Sublist.refl _)
  cases d.receiver with
  | none => exact List.Sublist.refl _
  | some i =>
    cases receiver with
    | none => exact List.nil_sublist _
    | some v => exact List.Sublist.refl _

lemma notMem_given {i : Nat} (hr : d.receiver = some i → receiver = none) (hi : i ∉ d.params) :
    i ∉ (d.given receiver args).map Prod.fst := by
  intro hmem
  obtain ⟨⟨j, v⟩, hx, rfl⟩ := List.mem_map.mp hmem
  rcases List.mem_append.mp hx with hx | hx
  · obtain ⟨hj, hv⟩ := List.of_mem_zip hx
    rw [hr (Option.mem_toList.mp hj)] at hv
    cases hv
  · exact hi (List.of_mem_zip hx).1

/-- When all slots are different, they hold what was meant for them. -/
lemma lays_fill (hlen : args.length = d.params.length) (h : (d.receiver.toList ++ d.params).Nodup)
    (hfits : ∀ x ∈ d.given receiver args, x.1 < d.frameSize) :
    d.Lays receiver args (fill (Array.replicate d.frameSize .nil)
      (d.given receiver args)).toList := by
  have hnodup : ((d.given receiver args).map Prod.fst).Nodup := h.sublist (map_given hlen)
  have hget : ∀ i v, (i, v) ∈ d.given receiver args →
      (fill (Array.replicate d.frameSize .nil) (d.given receiver args)).toList[i]? = some v := by
    intro i v hmem
    rw [Array.getElem?_toList]
    exact getElem?_fill hnodup hmem (by rw [Array.size_replicate]; exact hfits _ hmem)
  constructor
  case size => simp
  case subject => exact fun i v hi hv => hget i v (mem_given_receiver hi hv)
  case arguments =>
    intro k i hi
    have hk : k < args.length := by
      rw [hlen]
      exact (List.getElem?_eq_some_iff.mp hi).1
    rw [List.getElem?_eq_getElem hk]
    exact hget i _ (mem_given_param hi (List.getElem?_eq_getElem hk))
  case others =>
    intro i hlt hr hi
    rw [Array.getElem?_toList, getElem?_fill_of_notMem (notMem_given hr hi),
      Array.getElem?_replicate,
      if_pos hlt]

end FuncDef

/-! ### Activations -/

namespace Program

variable {p : Program} {decl : NodeId} {parent : FrameId} {receiver : Option Value}
  {args : List Value} {s s' : Store} {missing : Stop}

/-- Slots of the newest frame are filled as long as the frame has them. -/
lemma setSlots_nextFrame {slots : Array Value} {l : List (Nat × Value)}
    (h : (l.forM fun x => Op.setSlot s.nextFrame x.1 x.2 missing) (s.withFrame slots parent)
      = .ok () s') :
    s' = s.withFrame (fill slots l) parent ∧ ∀ x ∈ l, x.1 < slots.size := by
  induction l generalizing slots with
  | nil =>
    cases h
    exact ⟨rfl, fun x hx => absurd hx List.not_mem_nil⟩
  | cons x l ih =>
    change (Op.setSlot s.nextFrame x.1 x.2 missing >>= fun _ => l.forM _) _ = _ at h
    rw [Op.bind_apply, Op.setSlot, Op.bind_apply, Op.get_apply] at h
    dsimp only at h
    rw [Store.frameSize_nextFrame] at h
    by_cases hlt : x.1 < slots.size
    · rw [if_pos hlt, Op.modify_apply, Store.setSlot_nextFrame] at h
      obtain ⟨hs, hl⟩ := ih h
      refine ⟨hs, fun y hy => ?_⟩
      rcases List.mem_cons.mp hy with rfl | hy
      · exact hlt
      · rw [← @Array.size_setIfInBounds _ slots x.1 x.2]
        exact hl y hy
    · rw [if_neg hlt] at h
      cases h

/-- A frame is filled from left to right. -/
lemma activate_eq (decl : NodeId) (parent : FrameId) (receiver : Option Value) (args : List Value) :
    p.activate decl parent receiver args = do
      let d ← p.definition decl
      if args.length ≠ d.params.length then
        throw (.malformed decl .argumentCount)
      let frame ← Op.newFrame d.frameSize (some parent)
      (d.given receiver args).forM fun x =>
        Op.setSlot frame x.1 x.2 (.malformed decl .parameterBeyondFrame)
      return .declared ⟨frame, decl, d.entry, d.results⟩ := by
  have hcons : ∀ (x : Nat × Value) (l : List (Nat × Value)) (f : Nat × Value → Op Unit),
      (x :: l).forM f = f x >>= fun _ => l.forM f := fun _ _ _ => rfl
  refine bind_congr fun d => ?_
  dsimp only
  split_ifs
  · rfl
  · refine bind_congr fun frame => ?_
    rw [FuncDef.given]
    cases d.receiver with
    | none => rfl
    | some i =>
      cases receiver with
      | none => rfl
      | some v =>
        rw [Option.toList_some, Option.toList_some, List.zip_cons_cons, List.cons_append, hcons,
          bind_assoc]
        rfl

/-- A function that has been activated has a new frame, in which the receiver and the arguments are
where the function declares them. -/
lemma of_activate {callee : Callee} (h : p.activate decl parent receiver args s = .ok callee s') :
    ∃ d, p.definition decl = .ok d ∧ callee = .declared ⟨s.nextFrame, decl, d.entry, d.results⟩ ∧
      ∃ slots, s' = s.withFrame slots parent ∧
        ((d.receiver.toList ++ d.params).Nodup → d.Lays receiver args slots.toList) := by
  rw [activate_eq, Op.except_bind_apply] at h
  cases hd : p.definition decl with
  | error e =>
    rw [hd] at h
    cases h
  | ok d =>
    rw [hd] at h
    dsimp only at h
    by_cases hlen : args.length ≠ d.params.length
    · rw [if_pos hlen] at h
      cases h
    · rw [if_neg hlen] at h
      change (Op.newFrame d.frameSize (some parent) >>= _) s = _ at h
      rw [Op.bind_apply, newFrame_apply] at h
      by_cases hsize : d.frameSize ≤ maxValues
      · rw [if_pos hsize] at h
        dsimp only at h
        rw [Op.bind_apply] at h
        split at h
        case h_1 hx =>
          cases h
          obtain ⟨hs, hfits⟩ := setSlots_nextFrame hx
          rw [Array.size_replicate] at hfits
          refine ⟨d, rfl, rfl, _, hs, fun hnodup => ?_⟩
          exact FuncDef.lays_fill (Decidable.not_not.mp hlen) hnodup hfits
        case h_2 => cases h
      · rw [if_neg hsize] at h
        cases h

/-! ### What a call refers to -/

/-- What the node of a call refers to in a frame: the callee, the receiver, and the arguments from
left to right. -/
def Resolves (p : Program) (s : Store) (f : FrameId) (id : NodeId) (callee : Value)
    (receiver : Option Value) (args : List Value) : Prop :=
  ∃ n c part, p.node id = .ok n ∧ p.child id 0 = .ok c ∧ p.receiverPart c = .ok part ∧
    p.value f c s = .ok callee ∧ p.receiverValue f part s = .ok receiver ∧
    p.allValues f (n.children.drop 1) s = .ok args

/-- A binding has what the node refers to. -/
def Binds (p : Program) (s : Store) (f : FrameId) (id : NodeId) : Binding → Prop
  | .declared decl parent receiver args => ∃ n env,
      p.Resolves s f id (.func decl env) receiver args ∧
      p.node id = .ok n ∧ parent = if n.isFork then f else lexicalParent env
  | .native name args => ∃ receiver rest, p.Resolves s f id (.native name) receiver rest ∧
      args = receiver.toList ++ rest

lemma gives_self {α : Type} (look : Look α) :
    Look.Gives (· = s) (fun _ => True) look fun a => look s = .ok a := by
  rintro t rfl
  exact ends_any _

lemma binds_bindingOf {f : FrameId} {id : NodeId} {op : String} {b : Binding}
    (h : p.bindingOf f id op s = .ok b) : p.Binds s f id b := by
  have hgives : Look.Gives (· = s) (fun _ => True) (p.bindingOf f id op) (p.Binds s f id) := by
    refine .bind (.lift (ends_any _)) fun n hn => .bind (.lift (ends_any _)) fun c hc => ?_
    refine .bind (.lift (ends_any _)) fun part hpart => .bind (gives_self _) fun v hv => ?_
    cases v with
    | func decl env =>
      refine .bind (gives_self _) fun receiver hr => .bind (gives_self _) fun args ha => .pure ?_
      exact ⟨n, env, ⟨n, c, part, hn, hc, hpart, hv, hr, ha⟩, hn, rfl⟩
    | native name =>
      refine .bind (gives_self _) fun receiver hr => .bind (gives_self _) fun args ha => .pure ?_
      exact ⟨receiver, args, ⟨n, c, part, hn, hc, hpart, hv, hr, ha⟩, rfl⟩
    | _ => exact .throw trivial
  have hends := hgives s rfl
  rwa [h] at hends

end Program

end Flowgraph
