import Mathlib.Tactic.Common
import Flowgraph.Text.Bytes

/-!
# Characters of a text

A character is encoded by one to four bytes, and the encoding of a text is that of its characters,
one after the other. So a character starts where the encodings of those before it end.
-/

namespace Flowgraph.Text

variable {cs ds : List Char} {c : Char} {t : String} {i k n start : Nat}

/-! ### Encodings -/

/-- The bytes that encode some characters. -/
def encode (cs : List Char) : List UInt8 := cs.flatMap String.utf8EncodeChar

@[simp] lemma encode_nil : encode [] = [] := rfl

@[simp] lemma encode_cons (c : Char) (cs : List Char) :
    encode (c :: cs) = String.utf8EncodeChar c ++ encode cs := rfl

@[simp] lemma encode_append (cs ds : List Char) : encode (cs ++ ds) = encode cs ++ encode ds := by
  simp [encode]

lemma toByteArray_eq (t : String) : t.toByteArray = (encode t.toList).toByteArray :=
  String.utf8Encode_toList.symm

/-- The size of a text is the number of bytes of its encoding. -/
lemma length_encode (t : String) : (encode t.toList).length = t.utf8ByteSize := by
  rw [String.utf8ByteSize, toByteArray_eq, List.size_toByteArray]

lemma byte?_eq (t : String) (i : Nat) : byte? t i = (encode t.toList)[i]? := by
  rw [byte?, toByteArray_eq]
  by_cases h : i < (encode t.toList).length
  · rw [getElem?_pos _ i (by simpa using h), List.getElem_toByteArray, List.getElem?_eq_getElem h]
  · rw [getElem?_neg _ i (by simpa using h), List.getElem?_eq_none (Nat.not_lt.mp h)]

/-! ### Where characters start -/

/-- Where the character of that number starts, or where the text ends if there is none. -/
def offset (t : String) (k : Nat) : Nat := (encode (t.toList.take k)).length

@[simp] lemma offset_zero (t : String) : offset t 0 = 0 := by
  simp [offset]

lemma offset_succ (h : t.toList[k]? = some c) : offset t (k + 1) = offset t k + c.utf8Size := by
  simp [offset, List.take_add_one, h, String.length_utf8EncodeChar]

lemma offset_le (t : String) (k : Nat) : offset t k ≤ t.utf8ByteSize := by
  rw [offset, ← length_encode]
  conv_rhs => rw [← List.take_append_drop k t.toList]
  rw [encode_append, List.length_append]
  exact Nat.le_add_right _ _

lemma charFrom?_append (cs ds : List Char) (i : Nat) :
    charFrom? (cs ++ ds) ((encode cs).length + i) = charFrom? ds i := by
  induction cs with
  | nil => simp
  | cons c cs ih =>
    have hpos := c.utf8Size_pos
    have hlen : (encode (c :: cs)).length + i = c.utf8Size + ((encode cs).length + i) := by
      simp only [encode_cons, List.length_append, String.length_utf8EncodeChar]
      omega
    rw [hlen, List.cons_append, charFrom?, if_neg (by omega), if_neg (by omega),
      Nat.add_sub_cancel_left, ih]

/-- At the position where a character starts, that character is found. -/
lemma charAt?_offset (t : String) (k : Nat) : charAt? t (offset t k) = t.toList[k]? := by
  have h := charFrom?_append (t.toList.take k) (t.toList.drop k) 0
  rw [List.take_append_drop] at h
  rw [charAt?, offset, ← Nat.add_zero (List.length _), h, ← Nat.add_zero k,
    ← List.getElem?_drop, Nat.add_zero]
  cases t.toList.drop k with
  | nil => rfl
  | cons c cs => simp [charFrom?]

/-! ### Characters with their positions -/

/-- Characters with the positions at which they start, the first one at `start`. -/
def placed (start : Nat) : List Char → List (Nat × Char)
  | [] => []
  | c :: cs => (start, c) :: placed (start + c.utf8Size) cs

/-- The characters of a text with the positions of their first bytes. -/
def characters (t : String) : List (Nat × Char) := placed 0 t.toList

@[simp] lemma map_snd_placed (start : Nat) (cs : List Char) :
    (placed start cs).map Prod.snd = cs := by
  induction cs generalizing start with
  | nil => rfl
  | cons c cs ih => simp [placed, ih]

lemma getElem?_placed (start : Nat) (cs : List Char) (k : Nat) :
    (placed start cs)[k]? = cs[k]?.map fun c => (start + (encode (cs.take k)).length, c) := by
  induction cs generalizing start k with
  | nil => simp [placed]
  | cons c cs ih =>
    cases k with
    | zero => simp [placed]
    | succ k =>
      simp only [placed, List.getElem?_cons_succ, ih, List.take_succ_cons, encode_cons,
        List.length_append, String.length_utf8EncodeChar, Nat.add_assoc]

lemma getElem?_characters (t : String) (k : Nat) :
    (characters t)[k]? = t.toList[k]?.map fun c => (offset t k, c) := by
  simp [characters, getElem?_placed, offset]

lemma placed_append (start : Nat) (cs ds : List Char) :
    placed start (cs ++ ds) = placed start cs ++ placed (start + (encode cs).length) ds := by
  induction cs generalizing start with
  | nil => simp [placed]
  | cons c cs ih =>
    simp only [List.cons_append, placed, ih, encode_cons, List.length_append,
      String.length_utf8EncodeChar, Nat.add_assoc]

lemma placed_add (start n : Nat) (cs : List Char) :
    placed (start + n) cs = (placed start cs).map fun e => (e.1 + n, e.2) := by
  induction cs generalizing start with
  | nil => rfl
  | cons c cs ih =>
    simp only [placed, List.map_cons, ← ih, Nat.add_right_comm]

/-- The characters of two texts that are joined: those of the second one have moved. -/
lemma characters_append (a b : String) : characters (a ++ b) =
    characters a ++ (characters b).map fun e => (e.1 + a.utf8ByteSize, e.2) := by
  rw [characters, String.toList_append, placed_append, length_encode, placed_add]
  rfl

lemma le_of_mem_placed {e : Nat × Char} (he : e ∈ placed start cs) : start ≤ e.1 := by
  induction cs generalizing start with
  | nil => simp [placed] at he
  | cons c cs ih =>
    rcases List.mem_cons.mp he with rfl | he
    · exact Nat.le_refl _
    · exact Nat.le_trans (Nat.le_add_right _ _) (ih he)

/-- A later character starts at a later position. -/
lemma pairwise_placed (start : Nat) (cs : List Char) :
    (placed start cs).Pairwise fun e e' => e.1 < e'.1 := by
  induction cs generalizing start with
  | nil => exact .nil
  | cons c cs ih =>
    refine .cons (fun e he => ?_) (ih _)
    have hle := le_of_mem_placed he
    have hpos := c.utf8Size_pos
    show start < e.1
    omega

/-- A character is encoded by the bytes from its position on. -/
lemma encode_of_mem_characters {e : Nat × Char} (he : e ∈ characters t) :
    ((encode t.toList).drop e.1).take e.2.utf8Size = String.utf8EncodeChar e.2 := by
  obtain ⟨k, hk⟩ := List.getElem?_of_mem he
  rw [getElem?_characters] at hk
  obtain ⟨c, hc, rfl⟩ := Option.map_eq_some_iff.mp hk
  have hsplit : t.toList = t.toList.take k ++ c :: t.toList.drop (k + 1) := by
    obtain ⟨hlt, rfl⟩ := List.getElem?_eq_some_iff.mp hc
    rw [← List.drop_eq_getElem_cons hlt, List.take_append_drop]
  have hencode : encode t.toList = encode (t.toList.take k) ++
      (String.utf8EncodeChar c ++ encode (t.toList.drop (k + 1))) := by
    conv_lhs => rw [hsplit]
    rw [encode_append, encode_cons]
  dsimp only
  rw [hencode, offset, List.drop_left, ← String.length_utf8EncodeChar c, List.take_left]

end Flowgraph.Text
