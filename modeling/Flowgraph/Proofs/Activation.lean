import Mathlib.Tactic.Common
import Flowgraph.Operation.Call
import Flowgraph.Proofs.Frames
import Flowgraph.Proofs.Upkeep.Basic

/-!
# Activations

A call is bound in two parts: first the callee, the receiver and the arguments are read, which
changes nothing, and then a declared function gets its frame. Making the frame adds one frame to
the store, and nothing else.
-/

namespace Flowgraph

/-! ### Frames for declared functions -/

/-- Slots that are as many as a function needs, each of which is nil or was handed over. -/
structure Filled (d : FuncDef) (receiver : Option Value) (args : List Value)
    (slots : Array Value) : Prop where
  size : slots.size = d.frameSize
  content : ∀ v ∈ slots, v = .nil ∨ receiver = some v ∨ v ∈ args

lemma Filled.set {d : FuncDef} {receiver : Option Value} {args : List Value}
    {slots : Array Value} (h : Filled d receiver args slots) {v : Value}
    (hv : receiver = some v ∨ v ∈ args) (i : Nat) :
    Filled d receiver args (slots.setIfInBounds i v) := by
  refine ⟨by rw [Array.size_setIfInBounds, h.size], fun w hw => ?_⟩
  rcases Array.mem_or_eq_of_mem_setIfInBounds hw with hw | rfl
  · exact h.content w hw
  · exact .inr hv

namespace Program

variable {p : Program} {decl : NodeId} {parent : FrameId} {receiver : Option Value}
  {args : List Value} {s : Store}

section Fill

variable {d : FuncDef}

/-- The frame of the function has been added, whatever is in it by now. -/
def Added (d : FuncDef) (parent : FrameId) (receiver : Option Value) (args : List Value)
    (s s' : Store) : Prop :=
  ∃ slots, Filled d receiver args slots ∧ s' = s.withFrame slots parent

/-- The frame lacks a slot that it should have had. -/
def Lacks (d : FuncDef) (decl : NodeId) (e : Stop) : Prop :=
  e = .malformed decl .parameterBeyondFrame ∧
    ∃ i, (d.receiver = some i ∨ i ∈ d.params) ∧ d.frameSize ≤ i

lemma keeps_setParameter {i : Nat} (hi : d.receiver = some i ∨ i ∈ d.params) {v : Value}
    (hv : receiver = some v ∨ v ∈ args) :
    Op.Keeps (Added d parent receiver args s) (Lacks d decl)
      (Op.setSlot s.nextFrame i v (.malformed decl .parameterBeyondFrame)) fun _ => True := by
  refine .inspect fun s' hs' => ?_
  obtain ⟨slots, hf, rfl⟩ := hs'
  rw [Store.frameSize_nextFrame, hf.size]
  by_cases hlt : i < d.frameSize
  · rw [if_pos hlt]
    exact ⟨⟨_, hf.set hv i, Store.setSlot_nextFrame i v⟩, trivial⟩
  · rw [if_neg hlt]
    exact ⟨⟨slots, hf, rfl⟩, rfl, i, hi, by omega⟩

lemma keeps_setParameters :
    Op.Keeps (Added d parent receiver args s) (Lacks d decl)
      ((d.params.zip args).forM fun x =>
        Op.setSlot s.nextFrame x.1 x.2 (.malformed decl .parameterBeyondFrame)) fun _ => True := by
  refine .forM fun a ha => ?_
  have hmem := List.of_mem_zip ha
  exact keeps_setParameter (.inr hmem.1) (.inr hmem.2)

end Fill

/-- What activating a function does to a store: it adds the frame of the function, or it stops
because of a slot that the frame should have had, or without having changed anything. -/
def Activates (p : Program) (decl : NodeId) (parent : FrameId) (receiver : Option Value)
    (args : List Value) (s : Store) : EStateM.Result Stop Store Callee → Prop
  | .ok callee s' => ∃ d, p.definition decl = .ok d ∧ Added d parent receiver args s s' ∧
      callee = .declared ⟨s.nextFrame, decl, d.entry, d.results⟩
  | .error e s' => s' = s ∧ e.isAddress = false ∨
      ∃ d, p.definition decl = .ok d ∧ Added d parent receiver args s s' ∧ Lacks d decl e

lemma isAddress_of_definition {e : Stop} (h : p.definition decl = .error e) :
    e.isAddress = false := by
  have hends : Ends (fun e => e.isAddress = false) (fun _ => True) (p.definition decl) := by
    refine (ends_node (fun _ he => he) p decl).bind fun n _ => ?_
    cases n.definition? with
    | some d => exact trivial
    | none => exact rfl
  rwa [h] at hends

lemma newFrame_apply (size : Nat) :
    Op.newFrame size (some parent) s = if size ≤ maxValues then
      .ok s.nextFrame (s.withFrame (Array.replicate size .nil) parent)
    else .error .tooLarge s := by
  rw [Op.newFrame, Op.except_bind_apply, checkSize]
  by_cases h : size ≤ maxValues
  · rw [if_pos h, if_pos h]
    rfl
  · rw [if_neg h, if_neg h]

lemma activates_of_keeps {d : FuncDef} (hd : p.definition decl = .ok d) {fill : Op Callee}
    (h : Op.Keeps (Added d parent receiver args s) (Lacks d decl) fill
      (· = .declared ⟨s.nextFrame, decl, d.entry, d.results⟩)) :
    p.Activates decl parent receiver args s
      (fill (s.withFrame (Array.replicate d.frameSize .nil) parent)) := by
  have hadded : Added d parent receiver args s
      (s.withFrame (Array.replicate d.frameSize .nil) parent) :=
    ⟨_, ⟨Array.size_replicate, fun v hv => .inl (Array.eq_of_mem_replicate hv)⟩, rfl⟩
  have hfill := h _ hadded
  generalize fill _ = result at hfill ⊢
  cases result with
  | ok callee s' => exact ⟨d, hd, hfill.1, hfill.2⟩
  | error e s' => exact .inr ⟨d, hd, hfill.1, hfill.2⟩

/-- Activating a function adds a frame with the receiver and the arguments in it. -/
theorem activates (p : Program) (decl : NodeId) (parent : FrameId) (receiver : Option Value)
    (args : List Value) (s : Store) :
    p.Activates decl parent receiver args s (p.activate decl parent receiver args s) := by
  simp only [activate]
  rw [Op.except_bind_apply]
  cases hd : p.definition decl with
  | error e => exact .inl ⟨rfl, isAddress_of_definition hd⟩
  | ok d =>
    dsimp only
    by_cases hlen : args.length ≠ d.params.length
    · rw [if_pos hlen]
      exact .inl ⟨rfl, rfl⟩
    · rw [if_neg hlen, Op.bind_apply, newFrame_apply]
      by_cases hsize : d.frameSize ≤ maxValues
      · rw [if_pos hsize]
        dsimp only
        apply activates_of_keeps hd
        split
        case h_1 slot v hr =>
          refine .bind (keeps_setParameter (.inl hr) (.inl rfl)) fun _ _ => ?_
          exact .bind keeps_setParameters fun _ _ => .pure rfl
        case h_2 => exact .bind keeps_setParameters fun _ _ => .pure rfl
      · rw [if_neg hsize]
        exact .inl ⟨rfl, rfl⟩

/-! ### Bindings -/

/-- What a call is bound to before anything is created. -/
inductive Binding where
  | declared (decl : NodeId) (parent : FrameId) (receiver : Option Value) (args : List Value)
  | native (name : String) (args : List Value)

/-- Read the callee, the receiver and the arguments of a call. -/
def bindingOf (p : Program) (f : FrameId) (id : NodeId) (op : String) : Look Binding := do
  let n ← p.node id
  let callee ← p.child id 0
  let part ← p.receiverPart callee
  match ← p.value f callee with
  | .func decl env =>
    let receiver ← p.receiverValue f part
    let args ← p.allValues f (n.children.drop 1)
    return .declared decl (if n.isFork then f else lexicalParent env) receiver args
  | .native name =>
    let receiver ← p.receiverValue f part
    let args ← p.allValues f (n.children.drop 1)
    return .native name (receiver.toList ++ args)
  | v => throw (notCallable op v)

/-- Create what a binding needs. -/
def complete (p : Program) : Binding → Op Callee
  | .declared decl parent receiver args => p.activate decl parent receiver args
  | .native name args => pure (.native name args)

/-- Nothing is created before everything has been read. -/
lemma bindCall_eq (f : FrameId) (id : NodeId) (op : String) :
    p.bindCall f id op = (liftM (p.bindingOf f id op) : Op Binding) >>= p.complete := by
  simp only [bindCall, bindingOf, Op.lift_bind, Op.lift_lift, bind_assoc]
  refine bind_congr fun n => bind_congr fun callee => bind_congr fun part => ?_
  refine bind_congr fun v => ?_
  cases v with
  | func decl env => 
    simp only [Op.lift_bind, bind_assoc]
    rfl
  | native name => 
    simp only [Op.lift_bind, bind_assoc]
    rfl
  | _ => rfl

/-- Every value that was read has a property, that of the callee included. -/
def Binding.Holds (V : Value → Prop) (f : FrameId) (n : Node) : Binding → Prop
  | .declared decl parent receiver args =>
    (∃ env, V (.func decl env) ∧ parent = if n.isFork then f else lexicalParent env) ∧
      (∀ v, receiver = some v → V v) ∧ ∀ v ∈ args, V v
  | .native _ args => ∀ v ∈ args, V v

/-! ### Results -/

variable {f : FrameId} {id : NodeId} {n : Node} {vs : List Value}

lemma storeResults_none (h : p.node id = .ok n) (hslot : n.slot = none) :
    p.storeResults f id vs s = .ok () s := by
  simp only [storeResults, Op.except_bind_apply, h, hslot, Op.pure_apply]

lemma storeResults_some {slot : Nat} (h : p.node id = .ok n) (hslot : n.slot = some slot) :
    p.storeResults f id vs s =
      Op.setSlots f slot (vs.take n.width) (.malformed id .resultSlotsBeyondFrame) s := by
  simp only [storeResults, Op.except_bind_apply, h, hslot]

end Program

namespace Regime

variable {p : Program} {f : FrameId} {id : NodeId} {n : Node}
variable {I : Store → Prop} {V : Value → Prop} {E : Stop → Prop}

section Binding

variable (R : Regime p f id n I V E)

include R

lemma ends_receiverPart (callee : NodeId) :
    Ends E (fun part => ∀ c path, part = some (c, path) → c ∈ p.receiverOf callee)
      (p.receiverPart callee) := by
  refine (ends_node R.tolerant p callee).bind fun m hm => ?_
  by_cases hk : m.kind = .selector
  · rw [if_pos hk]
    refine (Flowgraph.ends_child R.tolerant p callee 0).bind fun c hc => ?_
    obtain ⟨m', hm', hc⟩ := hc
    rw [hm] at hm'
    cases hm'
    have hmem : c ∈ p.receiverOf callee := by
      rw [Program.receiverOf, hm]
      simp only [if_pos hk]
      exact Node.mem_pick (by simp) hc
    split
    · refine (ends_node R.tolerant p _).bind fun _ _ => ?_
      intro c' path' h
      cases h
      exact hmem
    · intro c' path' h
      cases h
      exact hmem
  · rw [if_neg hk]
    intro c path h
    cases h

lemma gives_receiver {part : Option (NodeId × List Nat)}
    (h : ∀ c path, part = some (c, path) → c ∈ p.touched id n) :
    Look.Gives I E (p.receiverValue f part) fun r => ∀ v, r = some v → V v := by
  cases part with
  | none =>
    refine .pure fun v hv => ?_
    cases hv
  | some part =>
    obtain ⟨c, path⟩ := part
    rw [Program.receiverValue_some]
    refine .bind (R.read c (h c path rfl)) fun v hv => ?_
    refine .bind (gives_follow R.toSteady R.faults _ hv path) fun w hw => .pure fun u hu => ?_
    cases hu
    exact hw

/-- What a call is bound to holds only values that its operands hold. -/
lemma gives_bindingOf (hk : n.kind = .call ∨ n.kind = .spawn) (op : String) :
    Look.Gives I E (p.bindingOf f id op) (Program.Binding.Holds V f n) := by
  have ht : p.touched id n = n.children ++ (n.pick [0]).flatMap p.receiverOf := by
    rcases hk with hk | hk <;> simp only [Program.touched, hk]
  have hargs : ∀ c ∈ n.children.drop 1, c ∈ p.touched id n := fun c hc =>
    ht ▸ List.mem_append_left _ (List.mem_of_mem_drop hc)
  simp only [Program.bindingOf]
  rw [R.node]
  refine .bind (P := (· = n)) (.lift rfl) fun m hm => ?_
  subst hm
  refine .bind (.lift (R.ends_child 0)) fun callee hcallee => ?_
  have hmem : callee ∈ m.pick [0] := Node.mem_pick (by simp) hcallee
  have hpick : ∀ c ∈ p.receiverOf callee, c ∈ p.touched id m := fun c hc =>
    ht ▸ List.mem_append_right _ (List.mem_flatMap.mpr ⟨callee, hmem, hc⟩)
  have hread : callee ∈ p.touched id m :=
    ht ▸ List.mem_append_left _ (List.mem_of_getElem? hcallee)
  refine .bind (.lift (R.ends_receiverPart callee)) fun part hpart => ?_
  have hreceiver : ∀ c path, part = some (c, path) → c ∈ p.touched id m := fun c path h =>
    hpick c (hpart c path h)
  refine .bind (R.read callee hread) fun v hv => ?_
  split
  case h_1 decl env =>
    refine .bind (R.gives_receiver hreceiver) fun receiver hr => ?_
    exact .bind (R.gives_allValues hargs) fun args ha => .pure ⟨⟨env, hv, rfl⟩, hr, ha⟩
  case h_2 name =>
    refine .bind (R.gives_receiver hreceiver) fun receiver hr => ?_
    refine .bind (R.gives_allValues hargs) fun args ha => .pure fun w hw => ?_
    rcases List.mem_append.mp hw with hw | hw
    · exact hr w (Option.mem_toList.mp hw)
    · exact ha w hw
  case h_3 =>
    refine .throw (R.tolerant _ ?_)
    cases v <;> rfl

end Binding

end Regime

end Flowgraph
