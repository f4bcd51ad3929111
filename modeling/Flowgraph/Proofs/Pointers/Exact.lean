import Mathlib.Tactic.Common
import Flowgraph.Proofs.Pointers.Copies
import Flowgraph.Proofs.Pointers.Runs
import Flowgraph.Proofs.Pointers.Text

/-!
# Pointers are exact

Blocks never change in size, pointers never dangle, and what is written through a pointer is what is
read at that place, through whatever handle, until somebody writes there again. This holds for all
that chains do, in any order, and for all that a host does meanwhile.
-/

namespace Flowgraph

variable {b : BlockId} {i : Nat} {s : Store} {v : Value}

/-! ### Reading -/

/-- A value is a handle to a block. Handles to the same block share its elements. -/
def Value.Shares (b : BlockId) (v : Value) : Prop := v = .slice b ∨ v = .struct b

lemma Value.Shares.asBlock (h : v.Shares b) (op : String) : v.asBlock op = .ok b := by
  rcases h with rfl | rfl <;> rfl

namespace Look

lemma element_of_target (h : s.target? b i = some v) {k : Int64} (hk : k.toInt = i) :
    Look.element b k s = .ok v := by
  obtain ⟨hi, rfl⟩ := Array.getElem?_eq_some_iff.mp h
  have hcheck : checkIndex k (s.block b).size = .ok i := by
    rw [checkIndex, hk, if_pos ⟨Int.natCast_nonneg i, Int.ofNat_lt.mpr hi⟩, Int.toNat_natCast]
  simp only [element, hcheck, bind, Except.bind]
  rw [Array.getD, dif_pos hi]
  rfl

/-- At the end of a path, the last index denotes an element of what the path led to before. -/
lemma follow_append (op : String) (root : Value) (pre : List Nat) (j : Nat) {c : Value}
    (hpre : follow op root pre s = .ok c) (hc : c.Shares b) (hi : (saturate j).toInt = i)
    (h : s.target? b i = some v) : follow op root (pre ++ [j]) s = .ok v := by
  induction pre generalizing root with
  | nil =>
    cases hpre
    rw [List.nil_append, follow, hc.asBlock op]
    exact (Look.bind_ok (element_of_target h hi)).trans rfl
  | cons k pre ih =>
    obtain ⟨d, hd, hnext⟩ := Look.of_bind hpre
    obtain ⟨w, hw, hnext⟩ := Look.of_bind hnext
    exact (Look.bind_ok hd).trans ((Look.bind_ok hw).trans (ih w hnext))

end Look

/-- All ways of reading an element yield a value: looking through a pointer, printing the pointer,
indexing any handle to the block, and following a path that ends there. -/
structure Machine.Reads (m : Machine) (b : BlockId) (i : Nat) (v : Value) : Prop where
  pointer : m.store.target? b i = some v
  text : ∀ depth, m.store.renderTo (depth + 1) (.pointer b i) = "&" ++ m.store.renderTo depth v
  index : ∀ f id c k, m.program.operand f id 0 m.store = .ok c → c.Shares b →
    m.program.operand f id 1 m.store = .ok (.int k) → k.toInt = i →
    m.program.index f id m.store = m.program.setOwn f id v m.store
  path : ∀ f id q n root pre j c, m.program.child id 1 = .ok q → m.program.node q = .ok n →
    n.indices? = some (pre ++ [j]) → m.program.operand f id 0 m.store = .ok root →
    Look.follow "index sequence" root pre m.store = .ok c → c.Shares b → (saturate j).toInt = i →
    m.program.indexPath f id m.store = m.program.setOwn f id v m.store

lemma Machine.reads_of_target {m : Machine} (h : m.store.target? b i = some v) : m.Reads b i v where
  pointer := h
  text depth := by simp only [Store.renderTo, h]
  index f id c k hc hshares hk hi := by
    have hread : Look.index c k m.store = .ok v := by
      have helement := Look.element_of_target h hi
      rcases hshares with rfl | rfl
      · exact helement
      · exact helement
    rw [Program.index, Op.look_bind_apply, hc]
    dsimp only
    rw [Op.look_bind_apply, hk]
    change (liftM (Look.index c k) >>= _ : Op Unit) m.store = _
    rw [Op.look_bind_apply, hread]
  path f id q n root pre j c hq hn hpath hroot hpre hshares hi := by
    have hread := Look.follow_append _ root pre j hpre hshares hi h
    rw [Program.indexPath, Op.except_bind_apply, hq]
    dsimp only
    rw [Op.except_bind_apply, hn]
    dsimp only
    rw [hpath]
    dsimp only
    rw [Op.look_bind_apply, hroot]
    dsimp only
    rw [Op.look_bind_apply, hread]

/-! ### What programs rely on -/

namespace Machine

variable {m start : Machine} {A : BlockId → Nat → Prop}

/-- A chain is about to write a value through a pointer to an element. -/
def Assigns (m : Machine) (x : ChainId) (c : Chain) (b : BlockId) (i : Nat) (v : Value) : Prop :=
  m.chain? x = some c ∧ c.stage = .walk ∧ ∃ a id depth rest n,
    c.walks = ⟨a, some id, depth⟩ :: rest ∧ m.program.node id = .ok n ∧ n.kind = .assignPointer ∧
    m.program.operand a.frame id 0 m.store = .ok (.pointer b i) ∧
    m.program.operand a.frame id 1 m.store = .ok v

/-- What is certain about blocks and pointers of a machine. -/
structure Reliable (m : Machine) : Prop where
  /-- No block ever changes in size. -/
  sizes : ∀ A m', Evolves A m m' → ∀ b : BlockId, b.index < m.store.blocks.size →
    (m'.store.block b).size = (m.store.block b).size
  /-- No pointer dangles, wherever it is. -/
  bounded : m.Bounded
  /-- No pointer that anybody has will ever dangle. -/
  stays : ∀ A m', Evolves A m m' → ∀ v : Value, v.Bounded m.store → v.Bounded m'.store
  /-- No text depends on what is printed for a pointer that dangles. -/
  texts : ∀ (v : Value) dangling depth, v.Bounded m.store →
    m.store.renderOr dangling depth v = m.store.renderTo depth v
  /-- Writing through a pointer never finds that it points past the end. -/
  inside : ∀ f id n, m.program.node id = .ok n → n.kind = .assignPointer → ∀ e t,
    m.program.perform f id m.store = .error e t → ∀ node, e ≠ .malformed node .pointerPastEnd
  /-- Writing through a pointer changes one element and nothing else, and until somebody overwrites
  the element, whoever reads it reads what was written. -/
  exact : ∀ x c b i v, m.Assigns x c b i v → m.store.Puts b i v (m.step (.run x)).store ∧
    (m.step (.run x)).chain? x = some { c with stage := .follow } ∧
    ∀ m', Evolves (fun b' i' => b' = b ∧ i' = i) (m.step (.run x)) m' → m'.Reads b i v
  /-- What a program copies stays a handle to the same block. -/
  copies : m.program.Copies m.store

variable {x : ChainId} {c : Chain}

/-- An operand that is a pointer is bounded. -/
lemma Sturdy.bounded_operand (h : m.Sturdy) (f : FrameId) (id : NodeId) (k : Nat) {v : Value}
    (hv : m.program.operand f id k m.store = .ok v) : v.Bounded m.store := by
  have hgives : Look.Gives (Store.Keeping (Value.Bounded m.store) m.store.Extends) (fun _ => True)
      (m.program.operand f id k) (Value.Bounded m.store) :=
    .bind (.lift (ends_any _)) fun c _ =>
      (Program.sources_bounded h.loaded m.store).origins.gives_value c
  have hends := hgives m.store ⟨h.bounded.store, .refl _⟩
  rw [hv] at hends
  exact hends

/-- The chain has written the value, and goes on. -/
lemma Assigns.step_eq (h : m.Assigns x c b i v) (hi : i < (m.store.block b).size) :
    m.step (.run x) =
      (m.mapStore fun s => s.setElement b i v).setChain x { c with stage := .follow } := by
  obtain ⟨hc, hs, a, id, depth, rest, n, hw, hn, hk, htarget, hv⟩ := h
  exact step_of_steps hc
    (.operation hs hw rfl (Program.perform_assignPointer hn hk htarget hv hi))

lemma Sturdy.exact (h : m.Sturdy) (ha : m.Assigns x c b i v) :
    m.store.Puts b i v (m.step (.run x)).store ∧
      (m.step (.run x)).chain? x = some { c with stage := .follow } ∧
      ∀ m', Evolves (fun b' i' => b' = b ∧ i' = i) (m.step (.run x)) m' → m'.Reads b i v := by
  have hi : i < (m.store.block b).size := by
    obtain ⟨-, -, a, id, -, -, -, -, -, -, htarget, -⟩ := ha
    exact h.bounded_operand _ _ _ htarget b i rfl
  have hstep := ha.step_eq hi
  have hputs : m.store.Puts b i v (m.step (.run x)).store := hstep ▸ Store.puts_setElement hi v
  refine ⟨hputs, hstep ▸ chain?_setChain_self ha.1, fun m' hm => ?_⟩
  have hb : b.index < (m.step (.run x)).store.blocks.size :=
    Nat.lt_of_lt_of_le (Store.lt_size_of_block hi) (h.extends_step _).count
  have hretains := (hm.retains (h.fits.step _) ⟨rfl, rfl⟩ hb).2
  exact reads_of_target (hretains.same.trans hputs.here)

/-- Where no pointer dangles, pointers can be relied on. -/
lemma Sturdy.reliable (h : m.Sturdy) : m.Reliable where
  sizes _ _ hm := (hm.sturdy h).2.size
  bounded := h.bounded
  stays _ _ hm _ hv := hv.mono (hm.sturdy h).2
  texts _ dangling depth hv := Store.renderOr_eq_of_bounded h.bounded.store hv dangling depth
  inside f id _ hn hk _ _ he :=
    Program.inside_of_perform hn hk (fun _ => h.bounded_operand f id 0) he
  exact _ _ _ _ _ ha := h.exact ha
  copies := m.program.copies m.store

/-- Whatever chains and hosts do, in whatever order: blocks never change in size, no pointer ever
dangles, and what is written through a pointer is read at that place through every handle until
somebody writes there again, while everything else stays as it is. -/
theorem reliable_of_evolves {graph : Graph} {natives : Registry} {config : Config} {kept : Bool}
    (hnatives : natives.Bounded) (hload : load graph natives config kept = .ok start)
    (hm : Evolves A start m) : m.Reliable :=
  (hm.sturdy (sturdy_of_load hnatives hload)).1.reliable

/-- The address of an element is taken, the handle is copied, and the element is written through the
pointer and read through the copy. -/
def aliasing : Graph where
  globals := 4
  nodes := #[
    { kind := .arrayLit, children := [⟨1⟩, ⟨2⟩, ⟨3⟩], slot := some 0, next := some ⟨4⟩ },
    { kind := .typeExpr },
    { kind := .basicLit, payload := some (.literal (.int 1)) },
    { kind := .basicLit, payload := some (.literal (.int 2)) },
    { kind := .indexAddress, children := [⟨5⟩, ⟨2⟩], slot := some 1, next := some ⟨6⟩ },
    { kind := .ident, slot := some 0 },
    { kind := .assign, children := [⟨7⟩, ⟨5⟩], next := some ⟨8⟩ },
    { kind := .ident, slot := some 2 },
    { kind := .assignPointer, children := [⟨9⟩, ⟨10⟩], next := some ⟨11⟩ },
    { kind := .ident, slot := some 1 },
    { kind := .basicLit, payload := some (.literal (.int 9)) },
    { kind := .index, children := [⟨7⟩, ⟨2⟩], slot := some 3 }]

theorem reliable_of_evolves_aliasing : ∃ loaded m, load aliasing .standard {} true = .ok loaded ∧
    Evolves (fun _ _ => False) loaded m ∧ m.Reliable ∧
    ∃ m', Evolves (fun b i => b = ⟨0⟩ ∧ i = 1) (m.step (.run ⟨0⟩)) m' ∧ m'.Reads ⟨0⟩ 1 (.int 9) ∧
      m'.store.slot? globalFrame 3 = some (.int 9) := by
  obtain ⟨loaded, hload⟩ : ∃ loaded, load aliasing .standard {} true = .ok loaded := ⟨_, rfl⟩
  have hchain : (Chain.atNode ⟨0⟩).Bounded loaded.store := ⟨fun _ _ => trivial, trivial⟩
  have hmove : ∀ {m}, Evolves (fun _ _ => False) loaded m →
      Evolves (fun _ _ => False) loaded (m.step (.run ⟨0⟩)) :=
    fun h => h.move _ fun _ _ hA => hA.elim
  have hm := hmove (hmove (hmove (hmove (hmove (hmove (.host .start (.atNode ⟨0⟩) hchain))))))
  have hreliable := reliable_of_evolves bounded_standard hload hm
  refine ⟨loaded, _, hload, hm, hreliable, ?_⟩
  cases hload
  have hexact := hreliable.exact ⟨0⟩ _ ⟨0⟩ 1 (.int 9)
    ⟨rfl, rfl, _, _, _, _, _, rfl, rfl, rfl, rfl, rfl⟩
  refine ⟨?last, ?later, hexact.2.2 _ ?later, ?read⟩
  case later =>
    refine .move (.move .start (.run ⟨0⟩) ?_) (.run ⟨0⟩) ?_
    · exact fun b i _ => not_overwrites_of_stage rfl fun hs => by cases hs
    · exact fun b i _ => not_overwrites_of_kind rfl rfl rfl rfl
  case read => rfl

end Machine

end Flowgraph
