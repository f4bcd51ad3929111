import Mathlib.Tactic.Common
import Flowgraph.Proofs.Hands.Values
import Flowgraph.Proofs.Names.Operands
import Flowgraph.Proofs.Natives

/-!
# Pointers stay within bounds

A block has as many elements as it was created with, and a pointer is made from an index that is
checked. So what a pointer points at is always there, wherever the pointer has gone meanwhile.
-/

namespace Flowgraph

variable {s t u : Store}

/-! ### Blocks -/

namespace Store

lemma block_newBlock (elements : Array Value) (b : BlockId) :
    (s.newBlock elements).2.block b = if b.index = s.blocks.size then elements else s.block b := by
  simp only [block, newBlock, Array.getElem?_push]
  split_ifs <;> rfl

lemma block_setElement (b : BlockId) (i : Nat) (v : Value) (c : BlockId) :
    (s.setElement b i v).block c = if c = b then (s.block c).setIfInBounds i v else s.block c := by
  simp only [block, setElement, Array.getElem?_modify]
  by_cases h : c = b
  · subst h
    rw [if_pos rfl, if_pos rfl]
    cases s.blocks[c.index]? <;> simp
  · have hne : b.index ≠ c.index :=
      fun he => h (by cases b; cases c; exact congrArg BlockId.mk he.symm)
    rw [if_neg hne, if_neg h]

lemma block_eq_empty {b : BlockId} (h : s.blocks.size ≤ b.index) : s.block b = #[] := by
  rw [block, Array.getElem?_eq_none h]
  rfl

/-- A block with elements has been created. -/
lemma lt_size_of_block {b : BlockId} {i : Nat} (h : i < (s.block b).size) :
    b.index < s.blocks.size := by
  by_contra hle
  rw [block_eq_empty (Nat.not_lt.mp hle)] at h
  exact Nat.not_lt_zero _ h

lemma target?_setElement_self {b : BlockId} {i : Nat} (h : i < (s.block b).size) (v : Value) :
    (s.setElement b i v).target? b i = some v := by
  rw [target?, block_setElement, if_pos rfl]
  exact Array.getElem?_setIfInBounds_self_of_lt h

/-- Only the element itself is overwritten. -/
lemma target?_setElement_of_ne {b c : BlockId} {i j : Nat} (h : c = b → j ≠ i) (v : Value) :
    (s.setElement b i v).target? c j = s.target? c j := by
  rw [target?, block_setElement]
  split_ifs with hc
  · rw [Array.getElem?_setIfInBounds, if_neg (Ne.symm (h hc))]
    rfl
  · rfl

/-- All blocks of a store are in another one, with as many elements. -/
structure Extends (s t : Store) : Prop where
  count : s.blocks.size ≤ t.blocks.size
  size : ∀ b : BlockId, b.index < s.blocks.size → (t.block b).size = (s.block b).size

namespace Extends

lemma refl (s : Store) : s.Extends s := ⟨Nat.le_refl _, fun _ _ => rfl⟩

lemma trans (h : s.Extends t) (h' : t.Extends u) : s.Extends u where
  count := Nat.le_trans h.count h'.count
  size b hb := by rw [h'.size b (Nat.lt_of_lt_of_le hb h.count), h.size b hb]

/-- What is done outside blocks changes no block. -/
lemma of_blocks (h : s.Extends t) (hu : u.blocks = t.blocks) : s.Extends u where
  count := hu ▸ h.count
  size b hb := by
    have hblock : u.block b = t.block b := by rw [block, block, hu]
    rw [hblock, h.size b hb]

lemma newBlock (h : s.Extends t) (elements : Array Value) : s.Extends (t.newBlock elements).2 where
  count := by
    rw [Store.newBlock, Array.size_push]
    exact Nat.le_succ_of_le h.count
  size b hb := by
    rw [block_newBlock, if_neg (Nat.ne_of_lt (Nat.lt_of_lt_of_le hb h.count)), h.size b hb]

lemma setElement (h : s.Extends t) (b : BlockId) (i : Nat) (v : Value) :
    s.Extends (t.setElement b i v) where
  count := by
    rw [Store.setElement, Array.size_modify]
    exact h.count
  size c hc := by
    rw [← h.size c hc, block_setElement]
    split_ifs
    · exact Array.size_setIfInBounds
    · rfl

end Extends

/-- Blocks are only added, and no operation changes their sizes. -/
lemma stable_extends (s : Store) : Stable s.Extends fun _ => True where
  plain _ _ := trivial
  fresh _ _ := ⟨trivial, trivial⟩
  element _ _ _ _ _ _ := trivial
  entry _ _ _ _ _ := ⟨trivial, trivial⟩
  newBlock _ elements ht _ := ht.newBlock elements
  newDict _ _ ht _ _ := ht.of_blocks rfl
  insertEntry _ _ _ _ ht _ _ := ht.of_blocks rfl
  newChannel _ _ ht := ht.of_blocks rfl
  writeLine _ _ ht := ht.of_blocks rfl

end Store

/-! ### Bounded values -/

/-- If a value is a pointer, then what it points at is there. -/
def Value.Bounded (s : Store) (v : Value) : Prop := ∀ b i, v = .pointer b i → i < (s.block b).size

namespace Value

lemma bounded_of_ne {v : Value} (h : ∀ b i, v ≠ .pointer b i) : v.Bounded s :=
  fun b i hv => absurd hv (h b i)

lemma bounded_plain {v : Value} (h : v.isPlain = true) : v.Bounded s := by
  rintro b i rfl
  cases h

lemma bounded_pointer {b : BlockId} {i : Nat} (h : i < (s.block b).size) :
    (pointer b i).Bounded s := by
  rintro _ _ ⟨⟩
  exact h

lemma Bounded.mono {v : Value} (h : v.Bounded s) (hst : s.Extends t) : v.Bounded t := by
  intro b i hv
  rw [hst.size b (Store.lt_size_of_block (h b i hv))]
  exact h b i hv

end Value

/-- When a native meets only bounded values, its replies involve no others. -/
def Native.Bounded (run : Native) : Prop :=
  ∀ config s args, s.Holds (Value.Bounded s) → (∀ v ∈ args, v.Bounded s) →
    (run config s args).Bears (Value.Bounded s)

/-- No native makes up pointers. -/
def Registry.Bounded (r : Registry) : Prop := ∀ e ∈ r.symbols, Native.Bounded e.2.run

namespace Registry

variable {r : Registry}

lemma bounded_empty : empty.Bounded := fun _ he => absurd he List.not_mem_nil

lemma Bounded.register (h : r.Bounded) {run : Native} (hrun : run.Bounded) (name : String)
    (type : Option TypeId) : (r.register name run type).Bounded := forall_register h hrun name type

lemma Bounded.of_symbol? (h : r.Bounded) {name : String} {symbol : Symbol}
    (hs : r.symbol? name = some symbol) : Native.Bounded symbol.run := Registry.of_symbol? h hs

end Registry

/-- The standard natives hand on texts only. -/
theorem bounded_standard : Registry.standard.Bounded := by
  have hone : ∀ (s : Store) (t : String), ∀ v ∈ [Value.str t], v.Bounded s := by
    intro s t v hv
    rw [List.mem_singleton.mp hv]
    exact Value.bounded_plain rfl
  have hline : Native.Bounded Native.printLine := fun _ _ _ _ _ _ hv => absurd hv List.not_mem_nil
  have hsprint : Native.Bounded Native.sprint := fun _ _ _ _ _ => hone _ _
  have hitoa : Native.Bounded Native.itoa := by
    intro config s args _ _
    simp only [Native.itoa]
    split
    · exact hone _ _
    · exact trivial
  have hupper : Native.Bounded Native.toUpper := by
    intro config s args _ _
    simp only [Native.toUpper]
    split
    · exact hone _ _
    · exact trivial
  exact (((Registry.bounded_empty.register hline _ _).register hsprint _ _).register hitoa
    _ _).register
    hupper _ _

/-! ### Programs -/

variable {p : Program}

/-- Constants and closures are no pointers, and no frame changes a block. -/
lemma Program.sources_bounded (hp : p.Loaded) (s : Store) :
    p.Sources (Value.Bounded s) (fun _ _ => True) (fun _ => True) s.Extends where
  plain _ := Value.bounded_plain
  block _ := ⟨Value.bounded_of_ne fun _ _ => Value.noConfusion,
    Value.bounded_of_ne fun _ _ => Value.noConfusion⟩
  constant id n hn := by
    refine Value.bounded_of_ne fun b i he => ?_
    refine hp.not_mentions_constant hn .blocks b.index ?_
    rw [he]
    exact ⟨rfl, rfl⟩
  closure _ _ _ _ _ _ _ := Value.bounded_of_ne fun _ _ => Value.noConfusion
  enter _ _ := trivial
  successor a id t _ := (ends_any _).mono fun _ _ => trivial
  stable := s.stable_extends
  settable _ b i v ht _ _ := ht.setElement b i v
  setSlot _ _ _ _ ht := ht.of_blocks rfl
  close _ _ ht := ht.of_blocks rfl
  begin _ _ _ _ _ ht _ _ := ⟨ht.of_blocks rfl, trivial⟩

/-- Only pointers that are bounded are handed on, and all blocks stay as large as they are. -/
lemma Store.Holds.hands_bounded (hs : s.Holds (Value.Bounded s)) (hp : p.Loaded)
    (hn : p.natives.Bounded) :
    p.Hands s (Store.Keeping (Value.Bounded s) s.Extends) (Value.Bounded s) (fun _ _ => True)
      fun _ => True :=
  (Program.sources_bounded hp s).hands ⟨hs, .refl s⟩ (fun _ _ => Value.bounded_pointer)
    fun _ _ _ hname ha => hn.of_symbol? hname _ _ _ hs ha

/-! ### Machines -/

/-- All pointers that a chain has at hand are bounded. -/
abbrev Chain.Bounded (s : Store) (c : Chain) : Prop :=
  c.Bears (Value.Bounded s) (fun _ _ => True) fun _ => True

lemma Chain.Bounded.mono {c : Chain} (h : c.Bounded s) (hst : s.Extends t) : c.Bounded t :=
  ⟨h.walks, h.stage.mono fun _ hv => hv.mono hst⟩

namespace Machine

variable {m : Machine}

/-- No pointer dangles: neither where it is held nor where a chain has it at hand. -/
structure Bounded (m : Machine) : Prop where
  store : m.store.Holds (Value.Bounded m.store)
  chains : ∀ x c, m.chain? x = some c → c.Bounded m.store

/-- What it takes for pointers to stay within bounds. -/
structure Sturdy (m : Machine) : Prop where
  loaded : m.program.Loaded
  natives : m.program.natives.Bounded
  fits : m.Fits
  bounded : m.Bounded

namespace Bounded

/-- In a store that extends the one before, what was bounded is bounded. -/
lemma change (h : m.Bounded) (hs : s.Holds (Value.Bounded m.store)) (hext : m.store.Extends s) :
    Bounded { m with store := s } where
  store := hs.mono fun _ hv => hv.mono hext
  chains x c hc := (h.chains x c hc).mono hext

lemma addChain (h : m.Bounded) {c : Chain} (hc : c.Bounded m.store) : (m.addChain c).2.Bounded where
  store := h.store
  chains x d hd := by
    rw [chain?_addChain_eq] at hd
    split_ifs at hd
    · cases hd
      exact hc
    · exact h.chains x d hd

end Bounded

namespace Sturdy

lemma keeping_step (h : m.Sturdy) (mv : Move) :
    Store.Keeping (Value.Bounded m.store) m.store.Extends (m.step mv).store :=
  Machine.keeping_step (h.bounded.store.hands_bounded h.loaded h.natives) h.fits h.bounded.chains
    fun _ _ => (Store.Extends.refl _).of_blocks rfl

/-- No move changes the size of a block. -/
theorem extends_step (h : m.Sturdy) (mv : Move) : m.store.Extends (m.step mv).store :=
  (h.keeping_step mv).2

/-- No move makes a pointer that dangles, or makes one dangle. -/
theorem step (h : m.Sturdy) (mv : Move) : (m.step mv).Sturdy where
  loaded := by rw [program_step]; exact h.loaded
  natives := by rw [program_step]; exact h.natives
  fits := h.fits.step mv
  bounded := by
    constructor
    case store => exact (h.keeping_step mv).1.mono fun _ hv => hv.mono (h.extends_step mv)
    case chains =>
      intro x d hd
      refine Chain.Bounded.mono ?_ (h.extends_step mv)
      exact bears_step (h.bounded.store.hands_bounded h.loaded h.natives) h.fits h.bounded.chains hd

lemma addChain (h : m.Sturdy) {c : Chain} (hc : c.Hosted) (hb : c.Bounded m.store) :
    (m.addChain c).2.Sturdy :=
  ⟨h.loaded, h.natives, h.fits.addChain (fits_hosted hc), h.bounded.addChain hb⟩

lemma change (h : m.Sturdy) (hs : s.Holds (Value.Bounded m.store)) (hext : m.store.Extends s) :
    Sturdy { m with store := s } := ⟨h.loaded, h.natives, h.fits, h.bounded.change hs hext⟩

lemma takeFaults (h : m.Sturdy) : m.takeFaults.2.Sturdy :=
  ⟨h.loaded, h.natives, h.fits, h.bounded.store, h.bounded.chains⟩

end Sturdy

/-- At the beginning there are no pointers. -/
lemma sturdy_of_load {graph : Graph} {natives : Registry} {config : Config} {kept : Bool}
    (hnatives : natives.Bounded) (h : load graph natives config kept = .ok m) : m.Sturdy := by
  obtain ⟨p, hp, rfl⟩ := of_load h
  have hnone : ∀ x c, (ofProgram p kept).chain? x ≠ some c := fun x c hc => by cases hc
  constructor
  case loaded => exact Program.loaded_of_load hp
  case natives =>
    have hsame : p.natives = natives := Program.natives_of_load hp
    exact hsame ▸ hnatives
  case fits => exact fun x c hc => absurd hc (hnone x c)
  case bounded =>
    exact ⟨holds_ofProgram (Value.bounded_plain rfl) p kept, fun x c hc => absurd hc (hnone x c)⟩

end Machine

end Flowgraph
