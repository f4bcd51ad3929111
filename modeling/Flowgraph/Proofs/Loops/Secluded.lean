import Mathlib.Tactic.Common
import Flowgraph.Proofs.Hands.Mentions
import Flowgraph.Proofs.Hands.Moves
import Flowgraph.Proofs.Pointers.Runs

/-!
# Secluded blocks

When nothing refers to some blocks but these blocks themselves, nobody comes by them: whatever
chains and hosts do, nothing refers to the blocks after that, and they hold what they held.
-/

namespace Flowgraph

open Named

variable {H : BlockId → Prop} {p : Program} {s t : Store} {b : BlockId}

/-! ### Values -/

/-- A value refers to none of some blocks. -/
def Value.Avoids (H : BlockId → Prop) (v : Value) : Prop := ∀ b, H b → ¬Mentions v .blocks b.index

namespace Value

variable {v : Value}

lemma avoids_plain (h : v.isPlain = true) : v.Avoids H := by
  intro b _ hm
  cases v with
  | map d => cases hm.1
  | chan c => cases hm.1
  | slice b | struct b => cases h
  | pointer b i => cases h
  | func decl env => cases h
  | _ => exact hm

lemma avoids_func (decl : NodeId) (env : Option FrameId) : (func decl env).Avoids H := by
  rintro b - ⟨f, -, hm, -⟩
  cases hm

lemma avoids_slice (h : ¬H b) : (slice b).Avoids H := by
  rintro c hc ⟨-, he⟩
  cases c
  cases he
  exact h hc

lemma avoids_struct (h : ¬H b) : (struct b).Avoids H := by
  rintro c hc ⟨-, he⟩
  cases c
  cases he
  exact h hc

lemma avoids_pointer (h : ¬H b) (i : Nat) : (pointer b i).Avoids H := by
  rintro c hc ⟨-, he⟩
  cases c
  cases he
  exact h hc

lemma avoids_of_item? (h : v.item? = none) : v.Avoids H := by
  cases v with
  | func decl env => exact avoids_func decl env
  | slice b | struct b => cases h
  | pointer b i => cases h
  | _ => exact avoids_plain rfl

/-- What was there before the blocks were does not refer to them. -/
lemma avoids_of_within {n : Table → Nat} (h : Within n v) (hH : ∀ b, H b → n .blocks ≤ b.index) :
    v.Avoids H := fun b hb hm => absurd (h .blocks b.index hm) (Nat.not_lt.mpr (hH b hb))

end Value

/-- Values that do not refer to the blocks lead to other blocks. -/
lemma BlockId.Known.not (h : b.Known (Value.Avoids H)) : ¬H b := by
  intro hb
  rcases h with h | h | ⟨i, h⟩
  · exact h b hb ⟨rfl, rfl⟩
  · exact h b hb ⟨rfl, rfl⟩
  · exact h b hb ⟨rfl, rfl⟩

/-! ### Stores -/

/-- Nothing in a store refers to some blocks, unless it is in these blocks, and they hold what they
hold in another store. -/
structure Store.Secludes (H : BlockId → Prop) (t s : Store) : Prop where
  elsewhere : Store.Holds (Value.Avoids H) { s with blocks := #[] }
  block : ∀ b, ¬H b → ∀ v ∈ s.block b, v.Avoids H
  there : ∀ b, H b → b.index < s.blocks.size
  same : ∀ b, H b → s.block b = t.block b

namespace Store.Secludes

lemma of_blocks {u : Store} (h : t.Secludes H s) (hu : u.blocks = s.blocks)
    (he : Store.Holds (Value.Avoids H) { u with blocks := #[] }) : t.Secludes H u where
  elsewhere := he
  block := by
    simp only [Store.block, hu]
    exact h.block
  there b hb := by
    rw [hu]
    exact h.there b hb
  same := by
    simp only [Store.block, hu]
    exact h.same

lemma newBlock (h : t.Secludes H s) {elements : Array Value} (he : ∀ v ∈ elements, v.Avoids H) :
    t.Secludes H (s.newBlock elements).2 where
  elsewhere := h.elsewhere
  block b hb v hv := by
    rw [block_newBlock] at hv
    split_ifs at hv
    · exact he v hv
    · exact h.block b hb v hv
  there b hb := by
    rw [Store.newBlock, Array.size_push]
    exact Nat.lt_succ_of_lt (h.there b hb)
  same b hb := by
    rw [block_newBlock, if_neg (Nat.ne_of_lt (h.there b hb))]
    exact h.same b hb

lemma setElement (h : t.Secludes H s) (hb : ¬H b) (i : Nat) {v : Value} (hv : v.Avoids H) :
    t.Secludes H (s.setElement b i v) where
  elsewhere := h.elsewhere
  block c hc w hw := by
    rw [block_setElement] at hw
    split_ifs at hw
    · rcases Array.mem_or_eq_of_mem_setIfInBounds hw with hw | rfl
      · exact h.block c hc w hw
      · exact hv
    · exact h.block c hc w hw
  there c hc := by
    rw [Store.setElement, Array.size_modify]
    exact h.there c hc
  same c hc := by
    have hne : c ≠ b := by
      rintro rfl
      exact hb hc
    rw [block_setElement, if_neg hne]
    exact h.same c hc

lemma setSlot (h : t.Secludes H s) (f : FrameId) (i : Nat) {v : Value} (hv : v.Avoids H) :
    t.Secludes H (s.setSlot f i v) := h.of_blocks rfl (h.elsewhere.setSlot f i hv)

lemma updateChannel (h : t.Secludes H s) (ch : ChannelId) {f : Channel → Channel}
    (hf : ∀ c : Channel, (∀ v ∈ c.buffer, v.Avoids H) → ∀ v ∈ (f c).buffer, v.Avoids H) :
    t.Secludes H (s.updateChannel ch f) := h.of_blocks rfl (h.elsewhere.updateChannel ch hf)

lemma stable (H : BlockId → Prop) (t : Store) : Stable (Store.Secludes H t) (Value.Avoids H) where
  plain _ := Value.avoids_plain
  fresh s hs := by
    have hnew : ¬H ⟨s.blocks.size⟩ := fun hb => Nat.lt_irrefl _ (hs.there _ hb)
    exact ⟨Value.avoids_slice hnew, Value.avoids_struct hnew⟩
  element s b v hs hb hv := hs.block b hb.not v hv
  entry s d e hs he := hs.elsewhere.dict d e he
  newBlock s elements hs he := hs.newBlock he
  newDict s d hs _ hd := hs.of_blocks rfl (hs.elsewhere.newDict hd)
  insertEntry s d k v hs hk hv := hs.of_blocks rfl (hs.elsewhere.insertEntry d hk hv)
  newChannel s capacity hs := hs.of_blocks rfl (hs.elsewhere.newChannel capacity)
  writeLine s line hs := hs.of_blocks rfl (hs.elsewhere.writeLine line)

/-- What values that do not refer to the blocks lead to does not refer to them either. -/
lemma avoids_of_leads (h : t.Secludes H s) {vs : List Value} (hvs : ∀ v ∈ vs, v.Avoids H)
    {v : Value} (hv : s.Leads vs v) : v.Avoids H := by
  induction hv with
  | given hv => exact hvs _ hv
  | @held v w i _ hi hv ih =>
    cases i with
    | block b =>
      have hb : ¬H b := by
        intro hb
        cases w with
        | slice c | struct c =>
          cases hi
          exact ih b hb ⟨rfl, rfl⟩
        | pointer c j =>
          cases hi
          exact ih b hb ⟨rfl, rfl⟩
        | func decl env => cases env <;> cases hi
        | _ => cases hi
      exact h.block b hb v (Array.mem_def.mpr hv)
    | frame f => exact Store.holds_iff.mp h.elsewhere (.frame f) v hv
    | dict d => exact Store.holds_iff.mp h.elsewhere (.dict d) v hv
    | channel c => exact Store.holds_iff.mp h.elsewhere (.channel c) v hv

lemma edit (h : t.Secludes H s) {e : Edit} (he : e.Brings (Value.Avoids H))
    (hset : ∀ b i v, e = .setElement b i v → ¬H b) : t.Secludes H (s.edit e) := by
  have helsewhere := h.elsewhere.edit (Value.avoids_plain rfl) he
  cases e with
  | newBlock elements => exact h.newBlock he
  | setElement b i v => exact h.setElement (hset b i v rfl) i he
  | _ => exact h.of_blocks rfl helsewhere

end Store.Secludes

/-! ### Programs and natives -/

/-- No program makes anything of blocks that are secluded. -/
lemma Program.origins_avoids (hp : p.Loaded) (H : BlockId → Prop) (t : Store) :
    p.Origins (Value.Avoids H) (fun _ _ => True) (fun _ => True) (Store.Secludes H t) where
  stable := Store.Secludes.stable H t
  settable _ _ i _ hs hb hv := hs.setElement hb.not i hv
  slots _ f v hs hv := hs.elsewhere.slots f v hv
  setSlot _ f i _ hs hv := hs.setSlot f i hv
  close _ ch hs := hs.updateChannel ch fun _ hc => hc
  constant _ _ hn _ _ := hp.not_mentions_constant hn _ _
  closure _ _ _ _ _ _ _ := Value.avoids_func _ _
  enter _ _ := trivial
  successor _ _ _ _ := (ends_any _).mono fun _ _ => trivial
  begin _ _ parent _ _ hs hv _ _ := ⟨hs.of_blocks rfl (hs.elsewhere.withFrame hv parent), trivial⟩

/-- A modest native that is given no secluded block does not hand one on. -/
lemma Registry.Modest.bears {r : Registry} (h : r.Modest) (hs : t.Secludes H s) {config : Config}
    {name : String} {symbol : Symbol} {args : List Value} (hname : r.symbol? name = some symbol)
    (hargs : ∀ v ∈ args, v.Avoids H) : (symbol.run config s args).Bears (Value.Avoids H) := by
  have hreads : ∀ v, Native.Reads s args v → v.Avoids H := by
    rintro v (hv | hv)
    · exact Value.avoids_of_item? hv
    · exact hs.avoids_of_leads hargs hv
  have hreply := h.of_symbol? hname config s args
  cases hr : symbol.run config s args with
  | results vs | print line vs =>
    rw [hr] at hreply
    exact fun v hv => hreads v (hreply v hv)
  | stop e => exact trivial
  | call f vs =>
    rw [hr] at hreply
    exact ⟨hreads f hreply.1, fun v hv => hreads v (hreply.2 v hv)⟩

/-! ### Machines -/

/-- A chain has nothing at hand that refers to some blocks. -/
abbrev Chain.Avoids (H : BlockId → Prop) (c : Chain) : Prop :=
  c.Bears (Value.Avoids H) (fun _ _ => True) fun _ => True

lemma Chain.avoids_of_mentions {c : Chain} (h : ∀ b, H b → ¬Mentions c .blocks b.index) :
    c.Avoids H :=
  Chain.bears_of_mentions (M := fun T k => T = .blocks → ∀ b, H b → k ≠ b.index)
    (fun v hv b hb hm => hv .blocks _ hm rfl b hb rfl) (fun _ _ => trivial)
    (fun _ _ _ => trivial) (by
      rintro T k hk rfl b hb rfl
      exact h b hb hk)

namespace Machine

variable {m : Machine}

/-- Nothing refers to some blocks but what is in them. -/
structure Secludes (H : BlockId → Prop) (t : Store) (m : Machine) : Prop where
  store : t.Secludes H m.store
  chains : ∀ x c, m.chain? x = some c → c.Avoids H

/-- No move comes by blocks that are secluded, and none changes them. -/
theorem Secludes.step (h : m.Secludes H t) (hp : m.program.Loaded) (hn : m.program.natives.Modest)
    (hfit : m.Fits) (mv : Move) : (m.step mv).Secludes H t := by
  have hands := (Program.origins_avoids hp H t).hands h.store
    (fun b i hb _ => Value.avoids_pointer hb.not i)
    fun _ _ _ hname hargs => hn.bears h.store hname hargs
  have hbuffer : ∀ ch, ∀ v ∈ (m.store.channel ch).buffer, v.Avoids H := h.store.elsewhere.buffer
  constructor
  case store =>
    refine store_step_of_hands hands (fun ch v hv => h.store.updateChannel ch fun c hc w hw => ?_)
      (fun ch => h.store.updateChannel ch fun c hc w hw => hc w (List.mem_of_mem_tail hw)) hfit
      fun x c _ hc _ _ => h.chains x c hc
    rcases List.mem_append.mp hw with hw | hw
    · exact hc w hw
    · rw [List.mem_singleton.mp hw]
      exact of_offers h.chains hbuffer hv
  case chains => exact fun x d hd => bears_next hands hfit h.chains hbuffer hd

lemma Secludes.addChain (h : m.Secludes H t) {c : Chain} (hc : c.Avoids H) :
    (m.addChain c).2.Secludes H t where
  store := h.store
  chains x d hd := by
    rw [chain?_addChain_eq] at hd
    split_ifs at hd
    · cases hd
      exact hc
    · exact h.chains x d hd

lemma Secludes.edit (h : m.Secludes H t) {e : Store.Edit} (he : e.Brings (Value.Avoids H))
    (hset : ∀ b i v, e = .setElement b i v → ¬H b) :
    Secludes H t { m with store := m.store.edit e } where
  store := h.store.edit he hset
  chains := h.chains

end Machine

end Flowgraph
