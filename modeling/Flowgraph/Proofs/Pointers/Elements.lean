import Mathlib.Tactic.Common
import Flowgraph.Proofs.Hands.Chains
import Flowgraph.Proofs.Pointers.Bounds
import Flowgraph.Proofs.Streams.Loop
import Flowgraph.Proofs.Upkeep.Advance

/-!
# Elements that keep what they hold

An element is overwritten through a pointer to it, and by a loop over a map that keeps its place in
it. A keyed literal writes only to a block that it has just created. All other operations leave
every element alone that is there.
-/

namespace Flowgraph

variable {b : BlockId} {i : Nat} {s t : Store} {p : Program} {f : FrameId} {id : NodeId} {n : Node}

/-! ### One element -/

/-- A block is there, and its element is what it is in another store. -/
structure Store.Retains (b : BlockId) (i : Nat) (s t : Store) : Prop where
  there : b.index < t.blocks.size
  same : t.target? b i = s.target? b i

namespace Store

lemma Retains.of_blocks {u : Store} (h : s.Retains b i t) (hu : u.blocks = t.blocks) :
    s.Retains b i u where
  there := hu ▸ h.there
  same := by
    have htarget : u.target? b i = t.target? b i := by rw [target?, target?, block, block, hu]
    rw [htarget, h.same]

lemma Retains.newBlock (h : s.Retains b i t) (elements : Array Value) :
    s.Retains b i (t.newBlock elements).2 where
  there := by
    rw [Store.newBlock, Array.size_push]
    exact Nat.lt_succ_of_lt h.there
  same := by rw [target?, block_newBlock, if_neg (Nat.ne_of_lt h.there), ← target?, h.same]

lemma Retains.setElement (h : s.Retains b i t) {c : BlockId} {j : Nat} (hne : b = c → i ≠ j)
    (v : Value) : s.Retains b i (t.setElement c j v) where
  there := by
    rw [Store.setElement, Array.size_modify]
    exact h.there
  same := by rw [target?_setElement_of_ne hne, h.same]

lemma robust_retains (b : BlockId) (i : Nat) (s : Store) : Robust (s.Retains b i) where
  plain _ _ := trivial
  fresh _ _ := ⟨trivial, trivial⟩
  element _ _ _ _ _ _ := trivial
  entry _ _ _ _ _ := ⟨trivial, trivial⟩
  newBlock _ elements ht _ := ht.newBlock elements
  newDict _ _ ht _ _ := ht.of_blocks rfl
  insertEntry _ _ _ _ ht _ _ := ht.of_blocks rfl
  newChannel _ _ ht := ht.of_blocks rfl
  writeLine _ _ ht := ht.of_blocks rfl
  setSlot _ _ _ _ ht := ht.of_blocks rfl
  withFrame _ _ _ ht := ht.of_blocks rfl

lemma closable_retains (b : BlockId) (i : Nat) (s : Store) : Closable (s.Retains b i) :=
  fun _ _ ht => ht.of_blocks rfl

end Store

/-! ### Operations that overwrite elements -/

/-- A node that is performed in a frame overwrites an element: it writes through a pointer to the
element, or goes on in a loop over a map whose place is kept there. -/
def Program.Overwrites (p : Program) (f : FrameId) (id : NodeId) (b : BlockId) (i : Nat)
    (s : Store) :
    Prop :=
  ∃ n, p.node id = .ok n ∧
    (n.kind = .assignPointer ∧ p.operand f id 0 s = .ok (.pointer b i) ∨
      n.kind = .range ∧ i = 0 ∧ (∃ d, p.operand f id 2 s = .ok (.map d)) ∧
        ∃ slot, n.slot = some slot ∧ s.slot? f (slot + 1) = some (.struct b))

namespace Program

/-- A zero value is in blocks of its own. -/
lemma keeps_zero_fresh (g : Graph) (t : Option TypeId) :
    Op.Keeps (s.Retains b i) (fun _ => True) (g.zero t)
      fun v => True ∧ ∀ op c, v.asBlock op = .ok c → c ≠ b := by
  refine keeps_zero_block (s.robust_retains b i).toSteady (fun _ _ => trivial) ?_ g t
  rintro t ht rfl
  exact Nat.lt_irrefl _ ht.there

/-- The place in a map is kept in the cursor that the loop has, or in a new one. -/
lemma keeps_cursor_apart (d : DictId) {position : Value} (hne : position = .struct b → i ≠ 0) :
    Op.Keeps (s.Retains b i) (fun _ => True) (Op.cursor d position) fun c => b = c → i ≠ 0 := by
  have hstart : Op.Keeps (s.Retains b i) (fun _ => True) (Op.cursor.start d)
      fun c => b = c → i ≠ 0 := by
    refine .get fun t _ => ?_
    refine .bind (keeps_newSlice (s.robust_retains b i).toSteady fun _ _ => trivial)
      fun keys _ => ?_
    refine .create fun t ht => ⟨ht.newBlock _, ?_⟩
    rintro rfl
    exact absurd ht.there (Nat.lt_irrefl _)
  simp only [Op.cursor]
  split
  case h_1 c => exact .pure fun he => hne (by rw [he])
  case h_2 => exact hstart
  case h_3 => exact hstart
  case h_4 => exact .throw trivial

section Operations

variable (hn : p.node id = .ok n)

include hn

lemma keeps_keyedLit_retains (hk : n.kind = .keyedLit) :
    Op.Keeps (s.Retains b i) (fun _ => True) (p.keyedLit f id) fun _ => True := by
  have R : Regime p f id n (s.Retains b i) (fun _ => True) fun _ => True :=
    regime_of_robust (s.robust_retains b i) hn fun _ => s.closable_retains b i
  refine R.keeps_keyedLit hk (C := (· ≠ b)) (keeps_zero_fresh p.graph) fun c hc t j v ht _ => ?_
  exact ht.setElement (fun he => absurd he.symm hc) v

variable (hb : b.index < s.blocks.size) (hw : ¬p.Overwrites f id b i s)

include hb hw

lemma leads_assignPointer_retains (hk : n.kind = .assignPointer) :
    Op.Leads s (s.Retains b i) (p.assignPointer f id) fun _ => True := by
  refine .look_bind (ends_any _) ⟨hb, rfl⟩ fun v _ => ?_
  refine .look_bind (ends_any _) ⟨hb, rfl⟩ fun target htarget => ?_
  split
  case h_1 c j =>
    have hne : b = c → i ≠ j := by
      rintro rfl rfl
      exact hw ⟨n, hn, .inl ⟨hk, htarget⟩⟩
    rw [Op.Leads, Op.bind_apply, Op.get_apply]
    dsimp only
    split_ifs
    · exact ⟨Store.Retains.setElement ⟨hb, rfl⟩ hne v, trivial⟩
    · exact ⟨hb, rfl⟩
  case h_2 => exact .throw ⟨hb, rfl⟩
  case h_3 => exact .throw ⟨hb, rfl⟩

lemma leads_range_retains (hk : n.kind = .range) :
    Op.Leads s (s.Retains b i) (p.range f id) fun _ => True := by
  have R : Regime p f id n (s.Retains b i) (fun _ => True) fun _ => True :=
    regime_of_robust (s.robust_retains b i) hn fun _ => s.closable_retains b i
  have hs : s.Retains b i s := ⟨hb, rfl⟩
  refine .lift_bind R.ends_rangeSlot hs fun slot hslot => ?_
  refine .lift_bind (ends_any _) hs fun _ _ => .lift_bind (ends_any _) hs fun _ _ => ?_
  refine .look_bind (ends_any _) hs fun collection hcollection => ?_
  rw [Op.Leads, Op.bind_apply, Op.get_apply]
  dsimp only
  cases hp : s.slot? f (slot + 1) with
  | none => exact hs
  | some position =>
    refine Op.Leads.mono (P := Pending.Holds fun _ => True) (Op.Keeps.leads (E := fun _ => True)
      (.bind (P := (· = position)) (.pure rfl) fun q hq => ?_) hs) (fun _ ht => ht)
        fun _ _ => trivial
    subst hq
    split
    case h_1 d =>
      refine .bind (keeps_iterateMap R.toSteady R.faults
        ((keeps_cursor_apart d ?_).mono fun _ hc => ⟨hc, trivial⟩)
        fun c hc t v ht _ => ht.setElement hc v) fun iteration h => R.keeps_iteration hk h
      rintro rfl rfl
      exact hw ⟨n, hn, .inr ⟨hk, rfl, ⟨d, hcollection⟩, slot, hslot, hp⟩⟩
    case h_2 =>
      refine .bind (.lift (ends_any _)) fun place _ => ?_
      refine .bind (.look (gives_iterate R.toSteady R.faults trivial place)) fun iteration h => ?_
      exact R.keeps_iteration hk h

end Operations

/-- Unless it overwrites the element, an operation leaves it alone. -/
theorem leads_perform_retains (hb : b.index < s.blocks.size) (hw : ¬p.Overwrites f id b i s) :
    Op.Leads s (s.Retains b i) (p.perform f id) fun _ => True := by
  by_cases hsets : ∃ n, p.node id = .ok n ∧ n.kind.setsElements = true
  · obtain ⟨n, hn, hsets⟩ := hsets
    have hdone : ∀ x : Op Unit, Op.Leads s (s.Retains b i) x (fun _ => True) →
        Op.Leads s (s.Retains b i) (completely x) fun _ => True :=
      fun x hx => hx.bind_pure fun _ _ => trivial
    rw [perform, hn]
    show Op.Leads s (s.Retains b i) (p.operation f id n.kind) fun _ => True
    cases hk : n.kind
    case assignPointer => exact hdone _ (leads_assignPointer_retains hn hb hw hk)
    case keyedLit => exact hdone _ ((keeps_keyedLit_retains hn hk).leads ⟨hb, rfl⟩)
    case range => exact leads_range_retains hn hb hw hk
    all_goals
      rw [hk] at hsets
      cases hsets
  · have hrest : ∀ n, p.node id = .ok n → n.kind.setsElements = true →
        Settable (s.Retains b i) fun _ => True := fun n hn hk => absurd ⟨n, hn, hk⟩ hsets
    exact (keeps_perform (s.robust_retains b i) (fun _ _ _ => s.closable_retains b i)
      hrest).leads ⟨hb, rfl⟩

end Program

/-! ### Chains and machines -/

/-- What a chain does next overwrites an element. -/
def Chain.Overwrites (p : Program) (b : BlockId) (i : Nat) (s : Store) (c : Chain) : Prop :=
  c.stage = .walk ∧ ∃ a id depth rest, c.walks = ⟨a, some id, depth⟩ :: rest ∧
    p.Overwrites a.frame id b i s

namespace Chain

variable {c : Chain} {step : Op Chain}

section Retains

variable (hb : b.index < s.blocks.size)

include hb

lemma leads_walk_retains (hs : c.stage = .walk) (hw : ¬c.Overwrites p b i s) :
    Op.Leads s (s.Retains b i) (c.walk p) fun _ => True := by
  simp only [walk]
  split
  case h_1 => exact .pure ⟨hb, rfl⟩ trivial
  case h_2 w rest hwalks =>
    split
    case h_1 => exact .look_bind (ends_any _) ⟨hb, rfl⟩ fun vs _ => .pure ⟨hb, rfl⟩ trivial
    case h_2 id hnode =>
      refine (Program.leads_perform_retains hb fun h => hw ?_).bind_pure fun _ _ => trivial
      obtain ⟨a, node, depth⟩ := w
      cases hnode
      exact ⟨hs, a, id, depth, rest, hwalks, h⟩

/-- By itself, a chain leaves all elements alone but the one that it overwrites. -/
theorem leads_advance_retains (hfit : c.Fits p) (ha : c.advance p = some step)
    (hw : ¬c.Overwrites p b i s) : Op.Leads s (s.Retains b i) step fun _ => True := by
  have R := s.robust_retains b i
  have hdone : ∀ {x : Op Chain} {P : Chain → Prop}, Op.Keeps (s.Retains b i) (fun _ => True) x P →
      Op.Leads s (s.Retains b i) x fun _ => True :=
    fun h => (h.leads ⟨hb, rfl⟩).mono (fun _ ht => ht) fun _ _ => trivial
  simp only [advance] at ha
  split at ha <;> cases ha
  case h_1 hs => exact leads_walk_retains hb hs hw
  case h_2 => exact hdone keeps_follow
  case h_3 callee receiver args _ =>
    exact ((Program.keeps_bindValues R.toDurable callee receiver args).leads ⟨hb, rfl⟩).bind_pure
      fun _ _ => trivial
  case h_4 => exact hdone (keeps_start R.writeLine _ _)
  case h_5 => exact hdone (keeps_deliver R.toDurable _)
  case h_6 hs => exact hdone (keeps_received R.toDurable hfit hs)
  case h_7 => exact .throw ⟨hb, rfl⟩

end Retains

end Chain

namespace Machine

variable {m : Machine} {mv : Move} {x : ChainId} {c : Chain} {v : Value}

/-- The move is a step of a chain that overwrites an element. -/
def Overwrites (m : Machine) (mv : Move) (b : BlockId) (i : Nat) : Prop :=
  ∃ x c, mv = .run x ∧ m.chain? x = some c ∧ c.Overwrites m.program b i m.store

lemma not_overwrites_of_stage (hc : m.chain? x = some c) (hs : c.stage ≠ .walk) :
    ¬m.Overwrites (.run x) b i := by
  rintro ⟨_, _, ⟨⟩, hd, hstage, -⟩
  rw [hc] at hd
  cases hd
  exact hs hstage

lemma not_overwrites_of_kind {a : Activation} {depth : Nat} {rest : List Walk}
    (hc : m.chain? x = some c)
    (hw : c.walks = ⟨a, some id, depth⟩ :: rest) (hn : m.program.node id = .ok n)
    (hk : n.kind.setsElements = false) : ¬m.Overwrites (.run x) b i := by
  rintro ⟨_, _, ⟨⟩, hd, -, a', id', depth', rest', hw', n', hn', hover⟩
  rw [hc] at hd
  cases hd
  rw [hw] at hw'
  cases hw'
  rw [hn] at hn'
  cases hn'
  rcases hover with ⟨hkind, -⟩ | ⟨hkind, -⟩ <;> rw [hkind] at hk <;> cases hk

/-- No move changes an element but one that overwrites it. -/
theorem retains_step (hfit : m.Fits) (hb : b.index < m.store.blocks.size)
    (hw : ¬m.Overwrites mv b i) : m.store.Retains b i (m.step mv).store := by
  rcases m.step_cases mv with hm | ⟨x, c, step, hmv, hc, ha, hm⟩
  · rcases hm.store with hs | ⟨ch, v, -, hs⟩ | ⟨ch, hs⟩ <;> rw [hs]
    · exact ⟨hb, rfl⟩
    · exact ⟨hb, rfl⟩
    · exact ⟨hb, rfl⟩
  · have hleads := Chain.leads_advance_retains hb (hfit x c hc) ha fun h => hw ⟨x, c, hmv, hc, h⟩
    exact hm ▸ hleads.stepChain

end Machine

/-! ### Writing through pointers -/

/-- An element holds a value, and nothing else has changed. -/
structure Store.Puts (b : BlockId) (i : Nat) (v : Value) (s t : Store) : Prop where
  here : t.target? b i = some v
  others : ∀ c j, (c = b → j ≠ i) → t.target? c j = s.target? c j
  frames : t.frames = s.frames
  dicts : t.dicts = s.dicts
  channels : t.channels = s.channels
  output : t.output = s.output

lemma Store.puts_setElement (h : i < (s.block b).size) (v : Value) :
    s.Puts b i v (s.setElement b i v) where
  here := target?_setElement_self h v
  others _ _ hne := target?_setElement_of_ne hne v
  frames := rfl
  dicts := rfl
  channels := rfl
  output := rfl

namespace Program

/-- The operation of a node is that of its kind. -/
lemma perform_of_node (hn : p.node id = .ok n) :
    p.perform f id s = p.operation f id n.kind s := by
  rw [perform, hn]
  rfl

/-- An operation that leaves nothing to be done is done. -/
lemma completely_apply {x : Op Unit} {t : Store} (h : x s = .ok () t) :
    completely x s = .ok .done t := by
  rw [completely, Op.bind_apply, h]
  rfl

/-- Through a pointer that is bounded, a value is always written, and to no other place. -/
lemma perform_assignPointer {v : Value} (hn : p.node id = .ok n) (hk : n.kind = .assignPointer)
    (htarget : p.operand f id 0 s = .ok (.pointer b i)) (hv : p.operand f id 1 s = .ok v)
    (hi : i < (s.block b).size) : p.perform f id s = .ok .done (s.setElement b i v) := by
  rw [perform_of_node hn, hk]
  refine completely_apply ?_
  rw [assignPointer, Op.look_bind_apply, hv]
  dsimp only
  rw [Op.look_bind_apply, htarget]
  dsimp only
  rw [Op.bind_apply, Op.get_apply]
  dsimp only
  rw [if_pos hi]
  rfl

/-- Through a pointer that is bounded, writing does not find that the element is missing. -/
lemma inside_of_perform (hn : p.node id = .ok n) (hk : n.kind = .assignPointer)
    (htarget : ∀ v, p.operand f id 0 s = .ok v → v.Bounded s) {e : Stop}
    (h : p.perform f id s = .error e t) (node : NodeId) : e ≠ .malformed node .pointerPastEnd := by
  have hoperand : ∀ k e, p.operand f id k s = .error e → e ≠ .malformed node .pointerPastEnd := by
    rintro k _ he rfl
    have hmissing := gives_operand_missing p f id k s trivial
    rw [he] at hmissing
    cases hmissing
  have hop : p.assignPointer f id s = .error e t := by
    rw [perform_of_node hn, hk] at h
    change completely (p.assignPointer f id) s = _ at h
    rw [completely, Op.bind_apply] at h
    split at h
    case h_1 => cases h
    case h_2 hr =>
      cases h
      exact hr
  rw [assignPointer, Op.look_bind_apply] at hop
  split at hop
  case h_2 he =>
    cases hop
    exact hoperand 1 _ he
  case h_1 v hv =>
    rw [Op.look_bind_apply] at hop
    split at hop
    case h_2 he =>
      cases hop
      exact hoperand 0 _ he
    case h_1 target ht =>
      split at hop
      case h_1 c j =>
        rw [Op.bind_apply, Op.get_apply] at hop
        dsimp only at hop
        rw [if_pos (htarget _ ht c j rfl)] at hop
        cases hop
      case h_2 =>
        cases hop
        exact fun he => by cases he
      case h_3 =>
        cases hop
        exact fun he => by cases he

end Program

end Flowgraph
