import Mathlib.Tactic.Common
import Flowgraph.Proofs.Upkeep.Compute

/-!
# Upkeep by all operations

The remaining operations, which hand on control or may have to wait, and from them the main
result: whatever the kind of a node, its operation upholds the regime, unless it is a call and
makes a frame.
-/

namespace Flowgraph

variable {I : Store → Prop} {V : Value → Prop} {E : Stop → Prop}

/-- What a received value is used for involves only values with a property. -/
def Purpose.Holds (V : Value → Prop) : Purpose → Prop
  | result => True
  | visit next => V next

/-- No function is called, and every value that is handed over has a property. -/
def Pending.Holds (V : Value → Prop) : Pending → Prop
  | done | sleep _ => True
  | send _ v => V v
  | receive _ purpose => purpose.Holds V
  | call _ | spawn _ => False

namespace Regime

variable {p : Program} {f : FrameId} {id : NodeId} {n : Node}

/-! ### Builtins and closures -/

section Builtins

variable (R : Regime p f id n I V E)

include R

lemma keeps_setKeyed {c : NodeId} (hc : ∀ a ∈ p.keyedValue c, a ∈ p.touched id n) {b : BlockId}
    (hset : ∀ s i v, I s → V v → I (s.setElement b i v)) :
    Op.Keeps I E (p.setKeyed f b c) fun _ => True := by
  refine .bind (.lift (ends_node R.tolerant p c)) fun m hm => ?_
  cases m.field? with
  | none => exact .throw (R.tolerant _ rfl)
  | some field =>
    have hvalue : p.keyedValue c = if m.kind = .keyValue then m.pick [1] else [c] := by
      rw [Program.keyedValue, hm]
    have hfield : ∀ v, V v → Op.Keeps I E (Op.setElement b (saturate field) v) fun _ => True :=
      fun v hv => keeps_setElement R.faults hset _ hv
    refine .ite (fun hk => ?_) fun hk => ?_
    · rw [hvalue, if_pos hk] at hc
      refine .bind (.look (R.gives_operand_of [1] (by simp) fun a ha => hc a ?_)) hfield
      rwa [Program.pick, hm] at ha
    · rw [hvalue, if_neg hk] at hc
      exact .bind (.look (R.read c (hc c (by simp)))) hfield

/-- A keyed literal overwrites nothing but elements of its own block. -/
lemma keeps_keyedLit (hk : n.kind = .keyedLit) {C : BlockId → Prop}
    (hzero : ∀ t, Op.Keeps I E (p.graph.zero t) fun v => V v ∧ ∀ op b, v.asBlock op = .ok b → C b)
    (hset : ∀ b, C b → ∀ s i v, I s → V v → I (s.setElement b i v)) :
    Op.Keeps I E (p.keyedLit f id) fun _ => True := by
  have ht : p.touched id n = (n.children.drop 1).flatMap p.keyedValue := by
    simp only [Program.touched, hk]
  refine R.bind_node (.bind (.lift (R.ends_literalType n)) fun t _ => ?_)
  refine .bind (hzero t) fun v hv => ?_
  refine .bind (.lift (ends_asBlock R.faults _ v).self) fun b hb => ?_
  refine .bind (.forM fun c hc => R.keeps_setKeyed (fun a ha => ?_) (hset b (hv.2 _ b hb)))
    fun _ _ => ?_
  · exact ht ▸ List.mem_flatMap.mpr ⟨c, hc, ha⟩
  · exact R.writeOwn (by rw [hk]; rfl) v hv.1

lemma keeps_funcLit (hk : n.kind = .funcLit) :
    Op.Keeps I E (p.funcLit f id) fun _ => True := by
  apply R.bind_node
  split
  case h_1 decl hp => exact R.writeOwn (by rw [hk]; rfl) _ (R.closure hk decl hp)
  case h_2 => exact .throw (R.tolerant _ rfl)

lemma gives_madeSize (ht : p.touched id n = n.pick [2]) :
    Look.Gives I E (p.madeSize f id) fun _ => True := by
  simp only [Program.madeSize]
  rw [R.node]
  refine .bind (P := (· = n)) (.lift rfl) fun m hm => ?_
  subst hm
  cases ha : m.child? 2 with
  | none => exact .pure trivial
  | some arg =>
    have harg : arg ∈ p.touched id m := ht ▸ Node.mem_pick (by simp) ha
    refine .bind (R.read arg harg) fun v _ => ?_
    refine .bind (.lift (ends_asInt R.faults _ v)) fun i _ => ?_
    split_ifs
    · exact .pure trivial
    · exact .throw (R.tolerant _ rfl)

lemma ends_madeType : Ends E (fun _ => True) (p.madeType id) := by
  refine (R.ends_child 1).bind fun c _ => ?_
  refine (ends_node R.tolerant p c).bind fun m _ => ?_
  refine (ends_node R.tolerant p id).bind fun m' _ => ?_
  split
  · exact trivial
  · exact trivial
  · exact R.tolerant _ rfl

lemma keeps_make (hk : n.kind = .make) : Op.Keeps I E (p.make f id) fun _ => True := by
  have ht : p.touched id n = n.pick [2] := by simp only [Program.touched, hk]
  have hs : n.kind.isStructural = false := by rw [hk]; rfl
  refine .bind (.lift R.ends_madeType) fun t _ => ?_
  refine .bind (.look (R.gives_madeSize ht)) fun size _ => ?_
  refine .bind (.lift (ends_orStop R.tolerant (p.graph.type t))) fun ty _ => ?_
  split
  · refine .bind (.lift (ends_checkSize R.tolerant _ _)) fun _ _ => ?_
    refine .bind (.times size (keeps_zero R.toSteady R.tolerant _ _)) fun zeros hz => ?_
    refine .bind (keeps_newSlice R.toSteady fun v hv => hz v (List.mem_toArray.mp hv))
      fun v hv => ?_
    exact R.writeOwn hs v hv
  · refine .bind (keeps_newChannel R.toSteady R.tolerant size) fun c _ => ?_
    exact R.writeOwn hs _ (R.plain _ rfl)
  · refine .bind (.create fun s hs => ⟨R.newMap hk s hs, trivial⟩) fun d (_ : True) => ?_
    exact R.writeOwn hs _ (R.plain _ rfl)
  · exact .throw (R.tolerant _ rfl)

lemma keeps_len (hk : n.kind = .len) : Op.Keeps I E (p.len f id) fun _ => True := by
  have ht : p.touched id n = n.pick [1] := by simp only [Program.touched, hk]
  refine .bind (.look (R.gives_pick ht (by simp))) fun v _ => ?_
  refine .bind (.look (gives_length R.faults v)) fun size _ => ?_
  exact R.writeOwn (by rw [hk]; rfl) _ (R.toSteady.ofNat _)

lemma keeps_closeChannel (hk : n.kind = .close) :
    Op.Keeps I E (p.close f id) fun _ => True := by
  have ht : p.touched id n = n.pick [1] := by simp only [Program.touched, hk]
  refine .bind (.look (R.gives_pick ht (by simp))) fun v _ => ?_
  refine .bind (.lift (ends_asChannel R.faults _ v)) fun c _ => ?_
  refine .get fun _ _ => .ite (fun _ => .throw (R.tolerant _ rfl)) fun _ => ?_
  exact .modify fun s hs => R.close hk s c hs

end Builtins

/-! ### Printing, cases and results -/

section Control

variable (R : Regime p f id n I V E)

include R

lemma keeps_println (hk : n.kind = .println) : Op.Keeps I E (p.println f id) fun _ => True := by
  have ht : p.touched id n = n.children.drop 1 := by simp only [Program.touched, hk]
  refine R.bind_node (.bind (.look (R.gives_allValues fun c hc => ht ▸ hc)) fun vs _ => ?_)
  exact .get fun t _ => .modify fun s hs => R.print hk s _ hs

lemma gives_caseMatches (hk : n.kind = .caseTest) :
    Look.Gives I E (p.caseMatches f id) fun _ => True := by
  simp only [Program.caseMatches]
  rw [R.node]
  refine .bind (P := (· = n)) (.lift rfl) fun m hm => ?_
  subst hm
  cases he : m.child? 0 with
  | none => exact .pure trivial
  | some expr =>
    have ht : p.touched id m = expr :: p.governing id := by simp only [Program.touched, hk, he]
    have hswitch : Ends E (fun c => p.switchOf id = .ok c) (p.switchOf id) := by
      cases hs : p.switchOf id with
      | ok c => exact rfl
      | error e =>
        have hends : Ends E (fun _ => True) (p.switchOf id) := by
          refine (ends_node R.tolerant p id).bind fun a _ => ?_
          cases a.parent with
          | none => exact R.tolerant _ rfl
          | some clause =>
            refine (ends_node R.tolerant p clause).bind fun b _ => ?_
            cases b.parent with
            | none => exact R.tolerant _ rfl
            | some switch => exact trivial
        rwa [hs] at hends
    refine .bind (.lift hswitch) fun switch hs => ?_
    refine .bind (R.gives_operand_of [0] (by simp) fun c hc => ?_) fun v _ => ?_
    · rw [ht, Program.governing, hs]
      exact List.mem_cons_of_mem _ hc
    · exact .bind (R.read expr (ht ▸ List.mem_cons_self)) fun w _ => .pure trivial

lemma keeps_caseTest (hk : n.kind = .caseTest) :
    Op.Keeps I E (p.caseTest f id) fun _ => True :=
  .bind (.look (R.gives_caseMatches hk)) fun b _ => R.keeps_setBool (by rw [hk]; rfl) b

end Control

/-! ### Loops -/

section Loops

lemma mem_destinations (hk : n.kind = .range) {i : Nat} (hi : i ∈ [0, 1]) {c : NodeId}
    (hc : n.child? i = some c) : c ∈ Program.destinations n := by
  simp only [Program.destinations, hk]
  exact Node.mem_pick hi hc

variable (R : Regime p f id n I V E)

include R

lemma ends_rangeSlot : Ends E (fun slot => n.slot = some slot) (p.rangeSlot id) := by
  simp only [Program.rangeSlot]
  rw [R.node]
  refine Ends.bind (P := (· = n)) rfl fun m hm => ?_
  subst hm
  cases m.slot with
  | some slot => exact rfl
  | none => exact R.tolerant _ rfl

lemma keeps_visit (hk : n.kind = .range) {key value next : Value} (hkey : V key)
    (hvalue : V value) (hnext : V next) :
    Op.Keeps I E (p.visit f id key value next) fun _ => True := by
  refine .bind (.lift R.ends_rangeSlot) fun slot hslot => ?_
  refine .bind (.lift (R.ends_child 0)) fun c hc => ?_
  refine .bind (R.writeTo c (mem_destinations hk (by simp) hc) key hkey) fun _ _ => ?_
  refine .bind (.lift (R.ends_child 1)) fun c hc => ?_
  refine .bind (R.writeTo c (mem_destinations hk (by simp) hc) value hvalue) fun _ _ => ?_
  refine .bind (.modify fun s hs => R.writePosition hk slot hslot s next hs hnext) fun _ _ => ?_
  exact R.keeps_setBool (by rw [hk]; rfl) true

lemma keeps_finish (hk : n.kind = .range) : Op.Keeps I E (p.finish f id) fun _ => True := by
  refine .bind (.lift R.ends_rangeSlot) fun slot hslot => ?_
  have hnil : V .nil := R.plain _ rfl
  refine .bind (.modify fun s hs => R.writePosition hk slot hslot s .nil hs hnil) fun _ _ => ?_
  exact R.keeps_setBool (by rw [hk]; rfl) false

lemma keeps_iteration (hk : n.kind = .range) {iteration : Iteration} (h : iteration.Holds V) :
    Op.Keeps I E
      (match iteration with
      | .visit key value next => do p.visit f id key value next; return Pending.done
      | .finished => do p.finish f id; return Pending.done
      | .await c next => return .receive c (.visit next))
      (Pending.Holds V) := by
  cases iteration with
  | visit key value next =>
    exact .bind (R.keeps_visit hk h.1 h.2.1 h.2.2) fun _ _ => .pure trivial
  | finished => exact .bind (R.keeps_finish hk) fun _ _ => .pure trivial
  | await c next => exact .pure h

lemma keeps_range (hk : n.kind = .range) (hset : Settable I V) :
    Op.Keeps I E (p.range f id) (Pending.Holds V) := by
  have ht : p.touched id n = n.pick [0, 1, 2] := by simp only [Program.touched, hk]
  refine .bind (.lift R.ends_rangeSlot) fun slot hslot => ?_
  refine .bind (.lift (R.ends_child 0)) fun _ _ => ?_
  refine .bind (.lift (R.ends_child 1)) fun _ _ => ?_
  refine .bind (.look (R.gives_pick ht (by simp))) fun collection hc => .get fun t hs => ?_
  have hposition := R.readPosition hk slot hslot t hs
  dsimp only
  cases hp : t.slot? f (slot + 1) with
  | none =>
    rw [hp] at hposition
    exact .throw_bind hposition
  | some position =>
    rw [hp] at hposition
    refine .bind (P := V) (.pure hposition) fun position hv => ?_
    split
    case h_1 d =>
      have hcursor := (keeps_cursor R.toSteady R.faults d hv).mono fun b hb => And.intro hb hb
      refine .bind (keeps_iterateMap R.toSteady R.faults hcursor fun b hb s v hs hv =>
        hset s b 0 v hs (.inr (.inl hb)) hv) fun iteration h => ?_
      exact R.keeps_iteration hk h
    case h_2 =>
      refine .bind (.lift (ends_sequencePosition R.faults _)) fun i _ => ?_
      refine .bind (.look (gives_iterate R.toSteady R.faults hc i)) fun iteration h => ?_
      exact R.keeps_iteration hk h

end Loops

/-! ### Channels and sleep -/

section Waiting

variable (R : Regime p f id n I V E)

include R

lemma gives_sleep (hk : n.kind = .sleep) :
    Look.Gives I E (p.sleep f id) (Pending.Holds V) := by
  have ht : p.touched id n = n.pick [1] := by simp only [Program.touched, hk]
  refine .bind (R.gives_pick ht (by simp)) fun v _ => ?_
  refine .bind (.lift (ends_asInt R.faults _ v)) fun i _ => .pure ?_
  split_ifs <;> exact trivial

lemma gives_send (hk : n.kind = .send) :
    Look.Gives I E (p.send f id) (Pending.Holds V) := by
  have ht : p.touched id n = n.pick [0, 1] := by simp only [Program.touched, hk]
  refine .bind (R.gives_pick ht (by simp)) fun c _ => ?_
  refine .bind (R.gives_pick ht (by simp)) fun v hv => ?_
  exact .bind (.lift (ends_asChannel R.faults _ c)) fun _ _ => .pure hv

lemma gives_receive (hk : n.kind = .receive) :
    Look.Gives I E (p.receive f id) (Pending.Holds V) := by
  have ht : p.touched id n = n.pick [0] := by simp only [Program.touched, hk]
  refine .bind (R.gives_pick ht (by simp)) fun c _ => ?_
  exact .bind (.lift (ends_asChannel R.faults _ c)) fun _ _ => .pure trivial

/-- What was received becomes the result of the node. -/
lemma keeps_storeReceived (hs : n.kind.isStructural = false) {v : Option Value}
    (hv : ∀ w, v = some w → V w) : Op.Keeps I E (p.storeReceived f id v) fun _ => True := by
  cases v with
  | some w => exact R.writeOwn hs w (hv w rfl)
  | none => exact R.keeps_setZero hs

/-- What was received is visited by the loop. -/
lemma keeps_visitReceived (hk : n.kind = .range) {next : Value} (hnext : V next)
    {v : Option Value} (hv : ∀ w, v = some w → V w) :
    Op.Keeps I E (p.visitReceived f id next v) fun _ => True := by
  cases v with
  | some w => exact R.keeps_visit hk (hv w rfl) (R.plain _ rfl) hnext
  | none => exact R.keeps_finish hk

end Waiting

/-! ### All operations -/

/-- An operation that leaves nothing to be done. -/
lemma keeps_completely {x : Op Unit} (h : Op.Keeps I E x fun _ => True) :
    Op.Keeps I E (Program.completely x) (Pending.Holds V) :=
  .bind h fun _ _ => .pure trivial

/-- Whatever a node is, unless it calls a function: its operation keeps `I`, hands on only values
with `V`, and stops only with `E`. -/
theorem keeps_operation (R : Regime p f id n I V E) (hc : n.kind ≠ .call) (hs : n.kind ≠ .spawn)
    (hset : n.kind.setsElements = true → Settable I V) :
    Op.Keeps I E (p.operation f id n.kind) (Pending.Holds V) := by
  cases hk : n.kind with
  | binary op => exact keeps_completely (R.keeps_binary hk)
  | neg =>
    refine keeps_completely (R.keeps_unary (by rw [hk]; rfl) ?_ R.ends_negate)
    simp only [Program.touched, hk]
  | inc =>
    refine keeps_completely (R.keeps_unary (by rw [hk]; rfl) ?_ R.ends_increment)
    simp only [Program.touched, hk]
  | dec =>
    refine keeps_completely (R.keeps_unary (by rw [hk]; rfl) ?_ R.ends_decrement)
    simp only [Program.touched, hk]
  | not => exact keeps_completely (R.keeps_lnot hk)
  | land => exact keeps_completely (R.keeps_land hk)
  | lor => exact keeps_completely (R.keeps_lor hk)
  | assign => exact keeps_completely (R.keeps_assign hk)
  | assignSpread => exact keeps_completely (R.keeps_assignSpread hk)
  | assignZero => exact keeps_completely (R.keeps_assignZero hk)
  | assignPointer => exact keeps_completely (R.keeps_assignPointer hk (hset (by rw [hk]; rfl)))
  | assignMap => exact keeps_completely (R.keeps_assignMap hk)
  | arrayLit => exact keeps_completely (R.keeps_arrayLit hk)
  | mapLit => exact keeps_completely (R.keeps_mapLit hk)
  | compositeLit => exact keeps_completely (R.keeps_compositeLit hk)
  | keyedLit =>
    have hfields := hset (by rw [hk]; rfl)
    refine keeps_completely (R.keeps_keyedLit hk (C := BlockId.Known V) (fun t => ?_)
      fun b hb s i v hs => hfields s b i v hs hb)
    refine (keeps_zero R.toSteady R.tolerant p.graph t).mono fun v hv => ⟨hv, fun op b hb => ?_⟩
    have hknown := ends_asBlock_known (E := fun _ => True) (fun _ _ => trivial) op hv
    rwa [hb] at hknown
  | index => exact keeps_completely (R.keeps_index hk)
  | indexAddress => exact keeps_completely (R.keeps_indexAddress hk)
  | indexPath => exact keeps_completely (R.keeps_indexPath hk)
  | indexMap => exact keeps_completely (R.keeps_indexMap hk)
  | make => exact keeps_completely (R.keeps_make hk)
  | receive => exact .look (R.gives_receive hk)
  | send => exact .look (R.gives_send hk)
  | close => exact keeps_completely (R.keeps_closeChannel hk)
  | len => exact keeps_completely (R.keeps_len hk)
  | sleep => exact .look (R.gives_sleep hk)
  | println => exact keeps_completely (R.keeps_println hk)
  | range => exact R.keeps_range hk (hset (by rw [hk]; rfl))
  | ret => exact keeps_completely (R.writeResults hk)
  | caseTest => exact keeps_completely (R.keeps_caseTest hk)
  | call => exact absurd hk hc
  | spawn => exact absurd hk hs
  | funcLit => exact keeps_completely (R.keeps_funcLit hk)
  | _ => exact .pure trivial

end Regime

end Flowgraph
