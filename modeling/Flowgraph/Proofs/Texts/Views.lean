import Mathlib.Tactic.Common
import Mathlib.Tactic.IntervalCases
import Flowgraph.Proofs.Loops.Sequences
import Flowgraph.Proofs.Texts.Characters

/-!
# Texts byte by byte and character by character

Programs measure, index and join texts by bytes, and visit them by characters. Both views are of the
same bytes: the encodings of the visited characters, put together, are the bytes that are found by
index.
-/

namespace Flowgraph

/-! ### Loops over texts

A loop over a text keeps the position of its next character. That is always a position at which a
character starts, or the end of the text, so the visits go through all characters in order. -/

namespace Loop

variable {L : Loop} {C : Course} {text : String} {k i t t₀ : Nat} {w : Value} {s : Store}

/-- What a visit finds in a text at a position. -/
lemma iteration_text (text : String) (hw : sequencePosition w = .ok i) :
    iteration (.str text) w s = match Text.charAt? text i with
      | some c => .ok (.visit (.ofNat i) (.ofNat c.toNat) (.ofNat (i + c.utf8Size))) s
      | none => .ok .finished s := by
  show (do Look.iterate (.str text) (← sequencePosition w) : Op Iteration) s = _
  rw [Op.except_bind_apply, hw]
  show Op.read (Look.iterate (.str text) i) s = _
  simp only [Op.read, Look.iterate]
  cases Text.charAt? text i <;> rfl

/-- The visits of a loop over a text, which is the same each time, from the beginning to the end. In
between, nobody writes to the position slot, and after a visit that has found a character the chain
comes back to the node. -/
structure Reads (L : Loop) (C : Course) (t₀ : Nat) (text : String) : Prop where
  first : L.VisitedAt C t₀
  begins : L.Begins (C.machine t₀).store
  ready : ∀ k ≤ text.length, ∀ t, L.Nth C t₀ k t →
    L.Ready (C.machine t).program (C.machine t).store (.str text)
  spared : ∀ k < text.length, ∀ t t', L.Nth C t₀ k t → L.Next C t t' →
    L.position (C.machine t').store = L.position (C.machine (t + 1)).store
  returns : ∀ k < text.length, ∀ t, L.Nth C t₀ k t →
    (C.machine (t + 1)).store.slot? L.frame L.slot = some (.bool true) →
    ∃ t' > t, L.VisitedAt C t'

/-- The visits take place at the times `u 0`, `u 1` and so on: one for each character of the text,
with the position of its first byte and its code point, and one more that ends the loop. -/
structure Spells (L : Loop) (C : Course) (t₀ : Nat) (text : String) (u : Nat → Nat) : Prop where
  first : u 0 = t₀
  visits : ∀ k ≤ text.length, L.Nth C t₀ k (u k)
  yields : ∀ k i c, (Text.characters text)[k]? = some (i, c) →
    L.Yields (C.machine (u k)).program (C.machine (u k)).store (C.machine (u k + 1)).store
      (.ofNat i) (.ofNat c.toNat) (.ofNat (i + c.utf8Size)) ∧
    L.Leaves (C.machine (u k)) (C.machine (u k + 1)) true
  ends : L.Finishes (C.machine (u text.length)).store (C.machine (u text.length + 1)).store ∧
    L.Leaves (C.machine (u text.length)) (C.machine (u text.length + 1)) false

section Visits

variable (hvisited : L.VisitedAt C t)
  (hready : L.Ready (C.machine t).program (C.machine t).store (.str text))
  (hposition : sequencePosition (L.position (C.machine t).store) = .ok (Text.offset text k))

include hvisited hready hposition

/-- A visit at the position of a character. -/
lemma yields_character {c : Char} (hc : text.toList[k]? = some c) :
    L.Yields (C.machine t).program (C.machine t).store (C.machine (t + 1)).store
      (.ofNat (Text.offset text k)) (.ofNat c.toNat) (.ofNat (Text.offset text (k + 1))) ∧
    L.Leaves (C.machine t) (C.machine (t + 1)) true := by
  rw [Text.offset_succ hc]
  apply hvisited.yields hready
  rw [iteration_text text hposition, Text.charAt?_offset, hc]

/-- A visit at the end of the text. -/
lemma finishes_text (hk : text.length ≤ k) :
    L.Finishes (C.machine t).store (C.machine (t + 1)).store ∧
      L.Leaves (C.machine t) (C.machine (t + 1)) false := by
  apply hvisited.finishes hready
  have hnone : text.toList[k]? = none :=
    List.getElem?_eq_none (by rwa [String.length_toList])
  rw [iteration_text text hposition, Text.charAt?_offset, hnone]

end Visits

namespace Reads

lemma exists_character (hk : k < text.length) : ∃ c, text.toList[k]? = some c :=
  ⟨_, List.getElem?_eq_getElem (by rwa [String.length_toList])⟩

/-- Each visit finds the position where its character starts. -/
lemma position (h : L.Reads C t₀ text) (held : text.utf8ByteSize < 2 ^ 63)
    (ht : L.Nth C t₀ k t) (hk : k ≤ text.length) :
    sequencePosition (L.position (C.machine t).store) = .ok (Text.offset text k) := by
  induction ht with
  | zero =>
    rw [Text.offset_zero]
    exact h.begins.sequencePosition
  | @succ k t t' ht hnext ih =>
    have hlt : k < text.length := hk
    obtain ⟨c, hc⟩ := exists_character hlt
    have hyields := yields_character ht.visitedAt (h.ready k hlt.le t ht) (ih hlt.le) hc
    have hle := Text.offset_le text (k + 1)
    rw [h.spared k hlt t t' ht hnext, hyields.1.position, sequencePosition_ofNat (by omega)]

/-- A visit that has found a character is followed by another one. -/
lemma exists_next (h : L.Reads C t₀ text) (held : text.utf8ByteSize < 2 ^ 63)
    (ht : L.Nth C t₀ k t) (hk : k < text.length) : ∃ t', L.Next C t t' := by
  obtain ⟨c, hc⟩ := exists_character hk
  have hyields := yields_character ht.visitedAt (h.ready k hk.le t ht)
    (h.position held ht hk.le) hc
  obtain ⟨t', hgt, hvisited⟩ := h.returns k hk t ht hyields.2.told
  exact Loop.exists_next hgt hvisited

/-- There is a visit for each character, and one more. -/
lemma exists_nth (h : L.Reads C t₀ text) (held : text.utf8ByteSize < 2 ^ 63)
    (k : Nat) : ∃ t, k ≤ text.length → L.Nth C t₀ k t := by
  induction k with
  | zero => exact ⟨t₀, fun _ => .zero h.first⟩
  | succ k ih =>
    obtain ⟨t, ht⟩ := ih
    by_cases hk : k < text.length
    · obtain ⟨t', hnext⟩ := h.exists_next held (ht hk.le) hk
      exact ⟨t', fun _ => (ht hk.le).succ hnext⟩
    · exact ⟨0, fun hle => absurd hle hk⟩

lemma spells (h : L.Reads C t₀ text) (held : text.utf8ByteSize < 2 ^ 63) :
    ∃ u, L.Spells C t₀ text u := by
  choose u hu using h.exists_nth held
  have hposition : ∀ k (hk : k ≤ text.length),
      sequencePosition (L.position (C.machine (u k)).store) = .ok (Text.offset text k) :=
    fun k hk => h.position held (hu k hk) hk
  refine ⟨u, (hu 0 (Nat.zero_le _)).unique (.zero h.first), hu, fun k i c hk => ?_, ?_⟩
  · rw [Text.getElem?_characters] at hk
    obtain ⟨d, hd, he⟩ := Option.map_eq_some_iff.mp hk
    cases he
    have hlt : k < text.length := by
      rw [← String.length_toList]
      exact (List.getElem?_eq_some_iff.mp hd).1
    rw [← Text.offset_succ hd]
    exact yields_character (hu k hlt.le).visitedAt (h.ready k hlt.le _ (hu k hlt.le))
      (hposition k hlt.le) hd
  · have hle : text.length ≤ text.length := Nat.le_refl _
    exact finishes_text (hu _ hle).visitedAt (h.ready _ hle _ (hu _ hle)) (hposition _ hle) hle

end Reads

end Loop

/-! ### Results of nodes -/

/-- Performing a node comes to a result. A value goes to the node's own slot, and a stop ends it
with nothing changed. -/
def Program.Answers (p : Program) (f : FrameId) (id : NodeId) (s : Store)
    (result : Except Stop Value) : Prop :=
  p.perform f id s = match result with
    | .ok v => Program.completely (p.setOwn f id v) s
    | .error e => .error e s

namespace Program

variable {p : Program} {f : FrameId} {id : NodeId} {n : Node} {s : Store} {v w : Value}

/-- An operation whose last part is to store a result. -/
lemma answers_of_eq {op : Op Unit} {result : Except Stop Value} (hn : p.node id = .ok n)
    (hop : p.operation f id n.kind = completely op)
    (heq : op s = ((liftM result : Op Value) >>= p.setOwn f id) s) : p.Answers f id s result := by
  unfold Answers
  rw [perform_of_node hn, hop, completely, Op.bind_apply, heq, Op.except_bind_apply]
  cases result with
  | ok v => exact (Op.bind_apply (p.setOwn f id v) (fun _ => pure Pending.done) s).symm
  | error e => rfl

lemma answers_len (hn : p.node id = .ok n) (hk : n.kind = .len)
    (hv : p.operand f id 1 s = .ok v) :
    p.Answers f id s ((Look.length v s).map Value.ofNat) := by
  refine answers_of_eq hn (by rw [hk]; rfl) ?_
  simp only [len, Op.look_bind_apply, Op.except_bind_apply, hv]
  cases Look.length v s <;> rfl

lemma answers_index {i : Int64} (hn : p.node id = .ok n) (hk : n.kind = .index)
    (hv : p.operand f id 0 s = .ok v) (hi : p.operand f id 1 s = .ok (.int i)) :
    p.Answers f id s (Look.index v i s) := by
  refine answers_of_eq hn (by rw [hk]; rfl) ?_
  simp only [index, Op.look_bind_apply, Op.except_bind_apply, hv, hi, Value.asInt]

lemma answers_binary {op : BinaryOp} (hn : p.node id = .ok n) (hk : n.kind = .binary op)
    (hv : p.operand f id 0 s = .ok v) (hw : p.operand f id 1 s = .ok w) :
    p.Answers f id s (op.evaluate v w) := by
  refine answers_of_eq hn (by rw [hk]; rfl) ?_
  simp only [binary, Op.look_bind_apply, Op.except_bind_apply, hv, hw]

end Program

/-! ### One text -/

namespace Text

variable {t a b : String} {i : Int64} {s : Store}

lemma index_eq (t : String) (i : Int64) (s : Store) : Look.index (.str t) i s =
    if 0 ≤ i.toInt ∧ i.toInt < t.utf8ByteSize then
      .ok (.ofNat ((byte? t i.toInt.toNat).getD 0).toNat)
    else .error (.fault (.indexOutOfRange i.toInt t.utf8ByteSize)) := by
  show (do
    let n ← checkIndex i t.utf8ByteSize
    return Value.ofNat ((byte? t n).getD 0).toNat : Except Stop Value) = _
  rw [checkIndex]
  split_ifs <;> rfl

/-- How a text that memory can hold appears to programs. -/
structure Viewed (t : String) : Prop where
  /-- A loop makes one visit for each character, and then comes to its end. -/
  spelled : ∀ (L : Loop) (C : Course) (t₀ : Nat), L.Reads C t₀ t → ∃ u, L.Spells C t₀ t u
  /-- The first key is zero. -/
  first : ∀ e, (characters t).head? = some e → e.1 = 0
  /-- The keys are strictly increasing. -/
  increasing : (characters t).Pairwise fun e e' => e.1 < e'.1
  /-- A node that measures the text answers with its size. -/
  size : ∀ (p : Program) (f : FrameId) (id : NodeId) (s : Store) (n : Node), p.node id = .ok n →
    n.kind = .len → p.operand f id 1 s = .ok (.str t) →
    p.Answers f id s (.ok (.int (saturate t.utf8ByteSize))) ∧
      (saturate t.utf8ByteSize).toInt = t.utf8ByteSize
  /-- A node that indexes the text answers with the byte at the index. There is one exactly if the
  index is neither negative nor as large as the size. -/
  indexed : ∀ (p : Program) (f : FrameId) (id : NodeId) (s : Store) (n : Node) (i : Int64),
    p.node id = .ok n → n.kind = .index → p.operand f id 0 s = .ok (.str t) →
    p.operand f id 1 s = .ok (.int i) →
    (i.toInt < 0 ∨ t.utf8ByteSize ≤ i.toInt →
      p.Answers f id s (.error (.fault (.indexOutOfRange i.toInt t.utf8ByteSize)))) ∧
    (0 ≤ i.toInt → i.toInt < t.utf8ByteSize →
      ∃ byte, (encode ((characters t).map Prod.snd))[i.toInt.toNat]? = some byte ∧
        p.Answers f id s (.ok (.int (saturate byte.toNat))))
  /-- The encodings of the visited characters, one after the other, are as long as the text. -/
  total : (encode ((characters t).map Prod.snd)).length = t.utf8ByteSize
  /-- A character is encoded by the bytes from its key on. -/
  encoded : ∀ e ∈ characters t, ((encode ((characters t).map Prod.snd)).drop e.1).take
    e.2.utf8Size = String.utf8EncodeChar e.2

lemma encode_characters (t : String) : encode ((characters t).map Prod.snd) = encode t.toList := by
  rw [characters, map_snd_placed]

lemma viewed (held : t.utf8ByteSize < 2 ^ 63) : Viewed t where
  spelled L C t₀ h := h.spells held
  first e he := by
    rw [List.head?_eq_getElem?, getElem?_characters] at he
    obtain ⟨c, -, rfl⟩ := Option.map_eq_some_iff.mp he
    exact offset_zero t
  increasing := pairwise_placed 0 t.toList
  size p f id s n hn hk hv :=
    ⟨Program.answers_len hn hk hv, toInt_saturate held⟩
  indexed p f id s n i hn hk hv hi := by
    have hanswers := Program.answers_index hn hk hv hi
    rw [index_eq] at hanswers
    refine ⟨fun hout => ?_, fun hlow hhigh => ?_⟩
    · rwa [if_neg (by omega)] at hanswers
    · rw [if_pos ⟨hlow, hhigh⟩, byte?_eq] at hanswers
      have hlt : i.toInt.toNat < (encode t.toList).length := by
        rw [length_encode]
        omega
      rw [List.getElem?_eq_getElem hlt] at hanswers
      refine ⟨_, ?_, hanswers⟩
      rw [encode_characters, List.getElem?_eq_getElem hlt, Option.getD_some]
  total := by rw [encode_characters, length_encode]
  encoded e he := by
    rw [encode_characters]
    exact encode_of_mem_characters he

/-! ### Two texts -/

/-- How two texts that are joined appear to programs. -/
structure Joined (a b : String) : Prop where
  /-- A node that adds the texts answers with the joined text. -/
  added : ∀ (p : Program) (f : FrameId) (id : NodeId) (s : Store) (n : Node), p.node id = .ok n →
    n.kind = .binary .add → p.operand f id 0 s = .ok (.str a) →
    p.operand f id 1 s = .ok (.str b) → p.Answers f id s (.ok (.str (a ++ b)))
  /-- Its size is the sum of the sizes. -/
  size : saturate (a ++ b).utf8ByteSize = saturate a.utf8ByteSize + saturate b.utf8ByteSize ∧
    (a ++ b).utf8ByteSize = a.utf8ByteSize + b.utf8ByteSize
  /-- Below the size of the first text, the bytes are those of the first text. -/
  left : ∀ (i : Int64) (s : Store), i.toInt < a.utf8ByteSize →
    (Look.index (.str (a ++ b)) i s).toOption = (Look.index (.str a) i s).toOption
  /-- From there on, they are those of the second text. -/
  right : ∀ (i : Int64) (s : Store), a.utf8ByteSize ≤ i.toInt →
    (Look.index (.str (a ++ b)) i s).toOption =
      (Look.index (.str b) (i - saturate a.utf8ByteSize) s).toOption
  /-- The visits are those of the first text, and then those of the second text with their keys
  moved. -/
  visits : characters (a ++ b) =
    characters a ++ (characters b).map fun e => (e.1 + a.utf8ByteSize, e.2)

lemma byte?_append_left {n : Nat} (h : n < a.utf8ByteSize) : byte? (a ++ b) n = byte? a n := by
  rw [byte?_eq, byte?_eq, String.toList_append, encode_append,
    List.getElem?_append_left (by rwa [length_encode])]

lemma byte?_append_right {n : Nat} (h : a.utf8ByteSize ≤ n) :
    byte? (a ++ b) n = byte? b (n - a.utf8ByteSize) := by
  rw [byte?_eq, byte?_eq, String.toList_append, encode_append,
    List.getElem?_append_right (by rwa [length_encode]), length_encode]

/-- The difference of two numbers that are not negative is never too large. -/
lemma toInt_sub_saturate {n : Nat} (hn : n ≤ i.toInt) : (i - saturate n).toInt = i.toInt - n := by
  have hlt := i.toInt_lt
  rw [Int64.toInt_sub, toInt_saturate (by omega)]
  exact Int.bmod_eq_of_le (by omega) (by omega)

lemma saturate_add {m n : Nat} (h : m + n < 2 ^ 63) :
    saturate (m + n) = saturate m + saturate n := by
  have hmin : ∀ k < 2 ^ 63, saturate k = Int64.ofNat k := by
    intro k hk
    have hmin : min k (Nat.pow 2 63 - 1) = k := Nat.min_eq_left (Nat.le_sub_one_of_lt hk)
    rw [saturate, hmin]
  rw [hmin _ h, hmin m (by omega), hmin n (by omega), Int64.ofNat_add]

lemma joined (held : (a ++ b).utf8ByteSize < 2 ^ 63) : Joined a b where
  added p f id s n hn hk hv hw := Program.answers_binary hn hk hv hw
  size := by
    rw [String.utf8ByteSize_append] at held ⊢
    exact ⟨saturate_add held, rfl⟩
  left i s hi := by
    rw [index_eq, index_eq, String.utf8ByteSize_append]
    by_cases hlow : 0 ≤ i.toInt
    · rw [if_pos (by omega), if_pos ⟨hlow, hi⟩, byte?_append_left (by omega)]
    · rw [if_neg (by omega), if_neg (by omega)]
      rfl
  right i s hi := by
    have hsub := toInt_sub_saturate hi
    rw [index_eq, index_eq, String.utf8ByteSize_append, hsub]
    by_cases hhigh : i.toInt < a.utf8ByteSize + b.utf8ByteSize
    · have hnat : i.toInt.toNat - a.utf8ByteSize = (i.toInt - a.utf8ByteSize).toNat := by omega
      rw [if_pos (by omega), if_pos (by omega), byte?_append_right (by omega), hnat]
    · rw [if_neg (by omega), if_neg (by omega)]
      rfl
  visits := characters_append a b

/-- Texts as programs see them by bytes, and as they see them by characters, are the same. -/
theorem views_agree : (∀ t : String, t.utf8ByteSize < 2 ^ 63 → Viewed t) ∧
    ∀ a b : String, (a ++ b).utf8ByteSize < 2 ^ 63 → Joined a b :=
  ⟨fun _ held => viewed held, fun _ _ held => joined held⟩

/-- A loop over a text of two characters, the second of which takes two bytes. -/
def reading : Program where
  graph := {
    globals := 4
    nodes := #[
      { kind := .range, children := [⟨1⟩, ⟨2⟩, ⟨3⟩], slot := some 0, next := some ⟨4⟩,
        otherwise := some ⟨5⟩ },
      { kind := .ident, slot := some 2 },
      { kind := .ident, slot := some 3 },
      { kind := .basicLit, payload := some (.literal (.str "aé")) },
      { kind := .nop, next := some ⟨0⟩ },
      { kind := .nop }] }
  constants := #[none, none, none, some (.str "aé"), none, none]
  natives := .empty
  config := {}

def readingLoop : Loop :=
  ⟨⟨0⟩, globalFrame, ⟨0⟩, 0, ⟨1⟩, ⟨2⟩, ⟨3⟩, some ⟨4⟩, ⟨5⟩⟩

def readingCourse : Course :=
  .ofMoves ((Machine.ofProgram reading true).addChain (.atNode ⟨0⟩)).2 fun _ => .run ⟨0⟩

lemma next_reading : readingLoop.Next readingCourse 0 4 ∧ readingLoop.Next readingCourse 4 8 := by
  constructor
  · refine ⟨by decide, ⟨⟨_, _, _, _, rfl, rfl, rfl, rfl⟩, rfl⟩, fun u hu hu' => ?_⟩
    rintro ⟨⟨c, a, depth, rest, hc, hs, hw, -⟩, -⟩
    interval_cases u <;> cases hc
    all_goals cases hs
    all_goals cases hw
  · refine ⟨by decide, ⟨⟨_, _, _, _, rfl, rfl, rfl, rfl⟩, rfl⟩, fun u hu hu' => ?_⟩
    rintro ⟨⟨c, a, depth, rest, hc, hs, hw, -⟩, -⟩
    interval_cases u <;> cases hc
    all_goals cases hs
    all_goals cases hw

lemma nth_reading : readingLoop.Nth readingCourse 0 0 0 ∧ readingLoop.Nth readingCourse 0 1 4 ∧
    readingLoop.Nth readingCourse 0 2 8 := by
  have hfirst : readingLoop.VisitedAt readingCourse 0 := ⟨⟨_, _, _, _, rfl, rfl, rfl, rfl⟩, rfl⟩
  have hone := (Loop.Nth.zero hfirst).succ next_reading.1
  exact ⟨.zero hfirst, hone, hone.succ next_reading.2⟩

lemma reads_reading : readingLoop.Reads readingCourse 0 "aé" := by
  obtain ⟨hzero, hone, htwo⟩ := nth_reading
  have hlength : "aé".length = 2 := by decide
  have hnth : ∀ k ≤ 2, ∀ t, readingLoop.Nth readingCourse 0 k t → t = 4 * k := by
    intro k hk t ht
    interval_cases k
    · exact ht.unique hzero
    · exact ht.unique hone
    · exact ht.unique htwo
  have hready : ∀ k ≤ 2, readingLoop.Ready (readingCourse.machine (4 * k)).program
      (readingCourse.machine (4 * k)).store (.str "aé") := by
    intro k hk
    interval_cases k
    all_goals
      exact ⟨⟨_, rfl, rfl, rfl, rfl, rfl, rfl, rfl, rfl, rfl⟩, (by decide),
        ⟨_, .slot rfl rfl rfl (by decide)⟩, ⟨_, .slot rfl rfl rfl (by decide)⟩, rfl⟩
  have hposition : readingLoop.position (readingCourse.machine 1).store = .ofNat 1 ∧
      readingLoop.position (readingCourse.machine 4).store = .ofNat 1 ∧
      readingLoop.position (readingCourse.machine 5).store = .ofNat 3 ∧
      readingLoop.position (readingCourse.machine 8).store = .ofNat 3 := ⟨rfl, rfl, rfl, rfl⟩
  refine ⟨hzero.visitedAt, .inl rfl, fun k hk t ht => ?_, fun k hk t t' ht hnext => ?_,
    fun k hk t ht _ => ?_⟩
  all_goals rw [hlength] at hk
  · cases hnth k hk t ht
    exact hready k hk
  · cases hnth k hk.le t ht
    cases hnth (k + 1) hk t' (ht.succ hnext)
    interval_cases k
    · exact hposition.2.1.trans hposition.1.symm
    · exact hposition.2.2.2.trans hposition.2.2.1.symm
  · cases hnth k hk.le t ht
    interval_cases k
    · exact ⟨4, by decide, hone.visitedAt⟩
    · exact ⟨8, by decide, htwo.visitedAt⟩

theorem views_agree_reading :
    (∃ u, readingLoop.Spells readingCourse 0 "aé" u) ∧
    characters "aé" = [(0, 'a'), (1, 'é')] ∧
    characters ("é" ++ "aé") = characters "é" ++ [(2, 'a'), (3, 'é')] := by
  refine ⟨?_, by decide, ?_⟩
  · exact (views_agree.1 "aé" (by decide)).spelled _ _ _ reads_reading
  · exact (views_agree.2 "é" "aé" (by decide)).visits

end Text

end Flowgraph
