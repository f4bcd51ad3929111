import Mathlib.Tactic.Common
import Flowgraph.Proofs.Operators.Integers

/-!
# Comparisons agree on one order

Six operators compare values. On integers and on texts each of them always answers, and all answers
are those of one total order. Texts are ordered by the bytes that an index finds in them. Equality
is there for all values, and everything else fails for operands that are not both integers, both
floats or both texts.
-/

namespace Flowgraph

/-! ### Texts by their bytes -/

namespace Text

variable {a b c t : String}

lemma toList_loop (bs : ByteArray) (i : Nat) (r : List UInt8) :
    ByteArray.toList.loop bs i r = r.reverse ++ bs.data.toList.drop i := by
  induction i, r using ByteArray.toList.loop.induct bs with
  | case1 i r hi ih =>
    have hget : bs.get! i = bs.data.toList[i] := by
      rw [Array.getElem_toList]
      exact getElem!_pos bs.data i hi
    rw [ByteArray.toList.loop, if_pos hi, ih, List.reverse_cons, List.append_assoc, hget,
      List.singleton_append, List.getElem_cons_drop]
  | case2 i r hi =>
    rw [ByteArray.toList.loop, if_neg hi, List.drop_eq_nil_of_le (Nat.not_lt.mp hi),
      List.append_nil]

lemma bytes_eq (t : String) : bytes t = encode t.toList := by
  rw [bytes, ByteArray.toList, toList_loop, toByteArray_eq, List.toList_data_toByteArray]
  rfl

lemma byte?_eq_getElem? (t : String) (i : Nat) : byte? t i = (bytes t)[i]? := by
  rw [byte?_eq, bytes_eq]

lemma byte?_eq_none_iff {i : Nat} : byte? t i = none ↔ t.utf8ByteSize ≤ i := by
  rw [byte?_eq, List.getElem?_eq_none_iff, length_encode]

lemma bytes_append (a b : String) : bytes (a ++ b) = bytes a ++ bytes b := by
  rw [bytes_eq, bytes_eq, bytes_eq, String.toList_append, encode_append]

lemma bytes_inj : bytes a = bytes b ↔ a = b := by
  refine ⟨fun h => ?_, fun h => h ▸ rfl⟩
  rw [bytes_eq, bytes_eq] at h
  rw [← String.toByteArray_inj, toByteArray_eq, toByteArray_eq, h]

/-- A text comes before another one: where their bytes differ for the first time it has a smaller
byte, or none. -/
def Before (a b : String) : Prop :=
  ∃ k, (∀ i < k, byte? a i = byte? b i) ∧
    ∃ y, byte? b k = some y ∧ ∀ x, byte? a k = some x → x < y

lemma lt_iff_getElem? (xs ys : List UInt8) : xs < ys ↔
    ∃ k : Nat, (∀ i < k, xs[i]? = ys[i]?) ∧
      ∃ y, ys[k]? = some y ∧ ∀ x, xs[k]? = some x → x < y := by
  induction xs generalizing ys with
  | nil =>
    cases ys with
    | nil => simp
    | cons y ys => exact iff_of_true (List.nil_lt_cons y ys) ⟨0, by simp, y, rfl, by simp⟩
  | cons x xs ih =>
    cases ys with
    | nil => simp
    | cons y ys =>
      -- The first difference is at the heads, or it is one further in than in the tails.
      rw [List.cons_lt_cons_iff, ih]
      constructor
      · rintro (hlt | ⟨rfl, k, hk, hfirst⟩)
        · exact ⟨0, by simp, y, rfl, fun x' hx' => by cases hx'; exact hlt⟩
        · refine ⟨k + 1, fun i hi => ?_, hfirst⟩
          cases i with
          | zero => rfl
          | succ i => exact hk i (Nat.lt_of_succ_lt_succ hi)
      · rintro ⟨k, hk, hfirst⟩
        cases k with
        | zero =>
          obtain ⟨y', hy, hlt⟩ := hfirst
          cases hy
          exact .inl (hlt x rfl)
        | succ k =>
          have hhead := hk 0 (Nat.succ_pos k)
          simp only [List.getElem?_cons_zero, Option.some.injEq] at hhead
          exact .inr ⟨hhead, k, fun i hi => hk (i + 1) (Nat.succ_lt_succ hi), hfirst⟩

lemma order_eq_lt_iff : order a b = .lt ↔ Before a b := by
  simp only [order, compareOfLessAndEq_eq_lt, lt_iff_getElem?, Before, byte?_eq_getElem?]

lemma order_eq_eq_iff : order a b = .eq ↔ a = b := by
  rw [order, compareOfLessAndEq_eq_eq List.le_refl List.not_le, bytes_inj]

instance : Std.TransCmp order where
  eq_swap {a b} := compareOfLessAndEq_eq_swap List.le_antisymm List.le_total List.not_le
  isLE_trans {a b c} := by
    have htrans : Std.TransCmp fun xs ys : List UInt8 => compareOfLessAndEq xs ys :=
      .compareOfLessAndEq_of_irrefl_of_trans_of_antisymm List.lt_irrefl List.lt_trans
        fun h h' => List.le_antisymm h' h
    exact htrans.isLE_trans

instance : Std.LawfulEqCmp order where
  compare_self := order_eq_eq_iff.mpr rfl
  eq_of_compare := order_eq_eq_iff.mp

lemma append_lt_append_iff (zs : List UInt8) {xs ys : List UInt8} :
    zs ++ xs < zs ++ ys ↔ xs < ys := by
  induction zs with
  | nil => rfl
  | cons z zs ih =>
    rw [List.cons_append, List.cons_append, List.cons_lt_cons_iff, ih]
    exact ⟨fun h => h.elim (fun h => absurd h (UInt8.lt_irrefl z)) And.right,
      fun h => .inr ⟨rfl, h⟩⟩

/-- What two texts begin with in common does not matter for their order. -/
lemma order_append (a b c : String) : order (c ++ a) (c ++ b) = order a b := by
  simp only [order, compareOfLessAndEq, bytes_append, append_lt_append_iff,
    List.append_cancel_left_eq]

/-- A text comes before one that goes on. -/
lemma before_append (a : String) (hc : c ≠ "") : Before a (a ++ c) := by
  have hempty : bytes "" = [] := by rw [bytes_eq]; rfl
  rw [← order_eq_lt_iff, order, compareOfLessAndEq_eq_lt, bytes_append]
  conv_lhs => rw [← List.append_nil (bytes a)]
  rw [append_lt_append_iff]
  cases hbytes : bytes c with
  | nil => exact absurd (bytes_inj.mp (hbytes.trans hempty.symm)) hc
  | cons x xs => exact List.nil_lt_cons x xs

end Text

/-! ### Comparisons -/

namespace BinaryOp

variable {α : Type} {embed : α → Value} {cmp : α → α → Ordering} {op : BinaryOp} {v w : Value}
  {a b c : String}

/-- The operators that compare. -/
def comparisons : List BinaryOp := [equal, notEqual, lower, lowerEqual, greater, greaterEqual]

/-- A comparison of two values is true. -/
def Holds (op : BinaryOp) (v w : Value) : Prop := op.evaluate v w = .ok (.bool true)

/-- Comparisons are those of one total order. -/
structure TotalOrder (embed : α → Value) : Prop where
  answers : ∀ op ∈ comparisons, ∀ x y, ∃ r, op.evaluate (embed x) (embed y) = .ok (.bool r)
  one : ∀ x y, ∃! op, op ∈ [lower, equal, greater] ∧ op.Holds (embed x) (embed y)
  lowerEqual : ∀ x y, lowerEqual.Holds (embed x) (embed y) ↔ ¬greater.Holds (embed x) (embed y)
  greaterEqual : ∀ x y, greaterEqual.Holds (embed x) (embed y) ↔ ¬lower.Holds (embed x) (embed y)
  trans : ∀ x y z, lower.Holds (embed x) (embed y) → lower.Holds (embed y) (embed z) →
    lower.Holds (embed x) (embed z)
  converse : ∀ x y, greater.evaluate (embed x) (embed y) = lower.evaluate (embed y) (embed x)

/-- What comparisons answer is decided by an ordering. -/
def Follows (embed : α → Value) (cmp : α → α → Ordering) : Prop :=
  ∀ (op : BinaryOp) x y r, op.accepts (cmp x y) = some r →
    op.evaluate (embed x) (embed y) = .ok (.bool r)

lemma accepts_of_mem (hop : op ∈ comparisons) (o : Ordering) : ∃ r, op.accepts o = some r := by
  simp only [comparisons, List.mem_cons, List.not_mem_nil, or_false] at hop
  rcases hop with rfl | rfl | rfl | rfl | rfl | rfl <;> exact ⟨_, rfl⟩

lemma Follows.holds_iff (h : Follows embed cmp) (hop : op ∈ comparisons) (x y : α) :
    op.Holds (embed x) (embed y) ↔ op.accepts (cmp x y) = some true := by
  obtain ⟨r, hr⟩ := accepts_of_mem hop (cmp x y)
  rw [Holds, h op x y r hr, hr]
  simp

/-- Of three comparisons, an ordering makes one hold. -/
lemma exists_accepts (o : Ordering) : ∃ op ∈ [lower, equal, greater],
    ∀ op' ∈ [lower, equal, greater], op'.accepts o = some true ↔ op' = op := by
  cases o <;> decide

lemma totalOrder [Std.TransCmp cmp] (h : Follows embed cmp) : TotalOrder embed where
  answers op hop x y := by
    obtain ⟨r, hr⟩ := accepts_of_mem hop (cmp x y)
    exact ⟨r, h op x y r hr⟩
  one x y := by
    have hsub : ∀ op ∈ [lower, equal, greater], op ∈ comparisons := by decide
    obtain ⟨op, hop, hiff⟩ := exists_accepts (cmp x y)
    refine ⟨op, ⟨hop, (h.holds_iff (hsub op hop) x y).mpr ((hiff op hop).mpr rfl)⟩, ?_⟩
    rintro op' ⟨hop', hholds⟩
    exact (hiff op' hop').mp ((h.holds_iff (hsub op' hop') x y).mp hholds)
  lowerEqual x y := by
    rw [h.holds_iff (by decide), h.holds_iff (by decide)]
    cases cmp x y <;> decide
  greaterEqual x y := by
    rw [h.holds_iff (by decide), h.holds_iff (by decide)]
    cases cmp x y <;> decide
  trans x y z := by
    have hlt : ∀ x y, lower.Holds (embed x) (embed y) ↔ cmp x y = .lt := fun x y => by
      rw [h.holds_iff (by decide)]
      cases cmp x y <;> decide
    rw [hlt, hlt, hlt]
    exact Std.TransCmp.lt_trans
  converse x y := by
    have hswap : cmp x y = (cmp y x).swap := Std.OrientedCmp.eq_swap
    rw [h greater x y (cmp x y == .gt) rfl, h lower y x (cmp y x == .lt) rfl, hswap]
    cases cmp y x <;> rfl

/-- Equality of values, and the ordering by which the other comparisons are decided, are computed
apart. They agree if only identical elements are equal in the ordering. -/
lemma follows [BEq α] [LawfulBEq α] [Std.LawfulEqCmp cmp]
    (hbeq : ∀ x y, (embed x == embed y) = (x == y))
    (hcompared : ∀ op ∈ [lower, lowerEqual, greater, greaterEqual], ∀ x y,
      op.evaluate (embed x) (embed y) = op.compared (cmp x y)) : Follows embed cmp := by
  intro op x y r hr
  have hequal : (embed x == embed y) = (cmp x y == .eq) := by
    rw [hbeq, Bool.eq_iff_iff, beq_iff_eq, beq_iff_eq, Std.LawfulEqCmp.compare_eq_iff_eq]
  cases op with
  | equal => cases hr; rw [evaluate, hequal]
  | notEqual => cases hr; rw [evaluate, hequal]; rfl
  | lower | lowerEqual | greater | greaterEqual =>
    cases hr
    rw [hcompared _ (by decide)]
    rfl
  | _ => cases hr

lemma follows_ints : Follows Value.int compare := by
  refine follows (fun _ _ => rfl) fun op hop a b => ?_
  simp only [List.mem_cons, List.not_mem_nil, or_false] at hop
  rcases hop with rfl | rfl | rfl | rfl <;> rfl

lemma follows_texts : Follows Value.str Text.order := by
  refine follows (fun _ _ => rfl) fun op hop a b => ?_
  simp only [List.mem_cons, List.not_mem_nil, or_false] at hop
  rcases hop with rfl | rfl | rfl | rfl <;> rfl

/-- Texts are ordered by the bytes that an index finds in them. -/
structure TextOrder : Prop where
  /-- A node that indexes a text answers with the byte at the index, if there is one. -/
  indexed : ∀ (p : Program) (f : FrameId) (id : NodeId) (s : Store) (n : Node) (t : String)
    (i : Int64), p.node id = .ok n → n.kind = .index → p.operand f id 0 s = .ok (.str t) →
    p.operand f id 1 s = .ok (.int i) →
    (∀ byte, 0 ≤ i.toInt → Text.byte? t i.toInt.toNat = some byte →
      p.Answers f id s (.ok (.int (saturate byte.toNat)))) ∧
    (i.toInt < 0 ∨ Text.byte? t i.toInt.toNat = none →
      p.Answers f id s (.error (.fault (.indexOutOfRange i.toInt t.utf8ByteSize))))
  lower_iff : ∀ a b, lower.Holds (.str a) (.str b) ↔ Text.Before a b
  /-- A text is lower than what it begins. -/
  begun : ∀ a c, c ≠ "" → lower.Holds (.str a) (.str (a ++ c))
  /-- Texts that are added to the same text are ordered as they were. -/
  added : ∀ op ∈ comparisons, ∀ a b c,
    op.onResults (add.evaluate (.str c) (.str a)) (add.evaluate (.str c) (.str b)) =
      op.evaluate (.str a) (.str b)

lemma lower_holds_iff : lower.Holds (.str a) (.str b) ↔ Text.Before a b := by
  rw [follows_texts.holds_iff (by decide), ← Text.order_eq_lt_iff]
  cases Text.order a b <;> decide

lemma textOrder : TextOrder where
  indexed p f id s n t i hn hk hv hi := by
    have hanswers := Program.answers_index hn hk hv hi
    rw [Text.index_eq] at hanswers
    refine ⟨fun byte hlow hbyte => ?_, fun hout => ?_⟩
    · have hhigh : ¬t.utf8ByteSize ≤ i.toInt.toNat := by
        rw [← Text.byte?_eq_none_iff, hbyte]
        exact Option.some_ne_none byte
      rwa [if_pos (by omega), hbyte, Option.getD_some] at hanswers
    · rw [Text.byte?_eq_none_iff] at hout
      rwa [if_neg (by omega)] at hanswers
  lower_iff _ _ := lower_holds_iff
  begun a c hc := lower_holds_iff.mpr (Text.before_append a hc)
  added op hop a b c := by
    obtain ⟨r, hr⟩ := accepts_of_mem hop (Text.order a b)
    rw [follows_texts op a b r hr]
    rw [← Text.order_append a b c] at hr
    exact follows_texts op (c ++ a) (c ++ b) r hr

/-! ### Operands of any kind -/

/-- Two values of one family that has an order. -/
inductive Alike : Value → Value → Prop
  | ints (a b : Int64) : Alike (.int a) (.int b)
  | floats (x y : Float) : Alike (.float x) (.float y)
  | texts (a b : String) : Alike (.str a) (.str b)

/-- Operators on any two values: equality always answers, and other operators need operands that
are alike. -/
structure OnAll (v w : Value) : Prop where
  equality : ∃ r, equal.evaluate v w = .ok (.bool r) ∧ notEqual.evaluate v w = .ok (.bool !r)
  mismatch : ∀ op, op ≠ equal → op ≠ notEqual → ¬Alike v w →
    ∃ expected found, op.evaluate v w = .error (.fault (.typeMismatch op.sign expected found))

/-- Operators other than equality choose by the families of their operands. -/
lemma evaluate_eq (hequal : op ≠ equal) (hnot : op ≠ notEqual) : op.evaluate v w =
    match v, w with
    | .int a, .int b => op.onInts a b
    | .float a, .float b => op.onFloats a b
    | .str a, .str b => op.onTexts a b
    | .int _, _ | .float _, _ | .str _, _ => .error (op.mismatch v.typeName w.typeName)
    | _, _ => .error (op.mismatch "int, float or string" v.typeName) := by
  cases op with
  | equal => exact absurd rfl hequal
  | notEqual => exact absurd rfl hnot
  | _ => rfl

lemma onAll (v w : Value) : OnAll v w where
  equality := ⟨_, rfl, rfl⟩
  mismatch op hequal hnot hv := by
    rw [evaluate_eq hequal hnot]
    cases v with
    | int a =>
      cases w with
      | int b => exact absurd (.ints a b) hv
      | _ => exact ⟨_, _, rfl⟩
    | float x =>
      cases w with
      | float y => exact absurd (.floats x y) hv
      | _ => exact ⟨_, _, rfl⟩
    | str a =>
      cases w with
      | str b => exact absurd (.texts a b) hv
      | _ => exact ⟨_, _, rfl⟩
    | _ => exact ⟨_, _, rfl⟩

/-- The operators that compare agree on a total order of integers and on one of texts, which is that
of their bytes. Equality is defined on all values, and a node of another operator stops with a fault
unless its operands are both integers, both floats or both texts. -/
theorem comparisons_agree : TotalOrder Value.int ∧ TotalOrder Value.str ∧ TextOrder ∧
    (∀ v w, OnAll v w) ∧
    ∀ (p : Program) (f : FrameId) (id : NodeId) (s : Store) (n : Node), p.node id = .ok n →
      ∀ op v w, n.kind = .binary op → p.operand f id 0 s = .ok v → p.operand f id 1 s = .ok w →
        p.Answers f id s (op.evaluate v w) :=
  ⟨totalOrder follows_ints, totalOrder follows_texts, textOrder, onAll,
    fun _ _ _ _ _ hn _ _ _ hk hv hw => Program.answers_binary hn hk hv hw⟩

/-- A node that compares a text with one that goes on, and one that compares a number with a text.
-/
def comparing : Program where
  graph := {
    globals := 2
    nodes := #[
      { kind := .basicLit, payload := some (.literal (.str "a")) },
      { kind := .basicLit, payload := some (.literal (.str "ab")) },
      { kind := .basicLit, payload := some (.literal (.int 1)) },
      { kind := .binary .lower, children := [⟨0⟩, ⟨1⟩], slot := some 0 },
      { kind := .binary .lower, children := [⟨2⟩, ⟨0⟩], slot := some 1 }] }
  constants := #[some (.str "a"), some (.str "ab"), some (.int 1), none, none]
  natives := .empty
  config := {}

theorem comparisons_agree_comparing :
    comparing.Answers globalFrame ⟨3⟩ (Machine.ofProgram comparing true).store
      (.ok (.bool true)) ∧
    ∃ expected found, comparing.Answers globalFrame ⟨4⟩ (Machine.ofProgram comparing true).store
      (.error (.fault (.typeMismatch "<" expected found))) := by
  obtain ⟨-, -, htexts, hall, hnodes⟩ := comparisons_agree
  have hnode := fun id n hn => hnodes comparing globalFrame id
    (Machine.ofProgram comparing true).store n hn
  have hlower : lower.evaluate (.str "a") (.str "ab") = .ok (.bool true) :=
    htexts.begun "a" "b" (by decide)
  obtain ⟨expected, found, hmismatch⟩ := (hall (.int 1) (.str "a")).mismatch lower (by decide)
    (by decide) nofun
  refine ⟨?_, expected, found, ?_⟩
  · rw [← hlower]
    exact hnode ⟨3⟩ _ rfl lower _ _ rfl rfl rfl
  · rw [show "<" = lower.sign from rfl, ← hmismatch]
    exact hnode ⟨4⟩ _ rfl lower _ _ rfl rfl rfl

end BinaryOp

end Flowgraph
