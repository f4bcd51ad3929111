import Mathlib.Tactic.Common
import Flowgraph.Proofs.Texts.Views

/-!
# Integers wrap around

An integer is a number of 64 bits in two's complement. Sums, differences and products are those of
numbers, reduced into the range of signed integers. A quotient is truncated toward zero, and its
remainder makes up the rest. Only division by zero fails, and whatever integers an operator is
applied to, it does not panic.
-/

namespace Flowgraph

/-! ### Bits -/

/-- The bits that two numbers share, and those that any of them has, make up both numbers. -/
lemma land_add_lor (a b : Nat) : (a &&& b) + (a ||| b) = a + b := by
  -- Half of a number has all its bits but the last one, and that one is its parity.
  induction a using Nat.strongRecOn generalizing b with
  | ind a ih =>
    by_cases ha : a = 0
    · subst ha
      simp
    · have hhalf := ih (a / 2) (by omega) (b / 2)
      rw [← Nat.and_div_two, ← Nat.or_div_two] at hhalf
      have hand := @Nat.and_mod_two_eq_one a b
      have hor := @Nat.or_mod_two_eq_one a b
      omega

lemma and_add_or (a b : Int64) : (a &&& b) + (a ||| b) = a + b := by
  refine Int64.toBitVec_inj.mp (BitVec.eq_of_toNat_eq ?_)
  simp only [Int64.toBitVec_add, Int64.toBitVec_and, Int64.toBitVec_or, BitVec.toNat_add,
    BitVec.toNat_and, BitVec.toNat_or, land_add_lor]

lemma toBitVec_getLsbD_ext {a b : Int64} (h : ∀ i, a.toBitVec.getLsbD i = b.toBitVec.getLsbD i) :
    a = b :=
  Int64.toBitVec_inj.mp (BitVec.eq_of_getLsbD_eq fun i _ => h i)

/-! ### Reduced numbers -/

/-- An integer is what a number is reduced to: it lies in the range of signed integers, and it
differs from the number by a multiple of `2 ^ 64`. -/
structure Reduces (z : Int) (c : Int64) : Prop where
  range : -2 ^ 63 ≤ c.toInt ∧ c.toInt < 2 ^ 63
  congruent : (2 ^ 64 : Int) ∣ z - c.toInt

lemma reduces_of_bmod {z : Int} {c : Int64} (h : c.toInt = z.bmod (2 ^ 64)) : Reduces z c where
  range := ⟨c.le_toInt, c.toInt_lt⟩
  congruent := by
    rw [h]
    exact Int.dvd_self_sub_bmod

/-! ### Quotients and remainders -/

lemma div_mul_add_mod (a b : Int64) : a / b * b + a % b = a := by
  refine Int64.toInt_inj.mp ?_
  rw [Int64.toInt_add, Int64.toInt_mul, Int64.toInt_div, Int64.toInt_mod, Int.bmod_mul_bmod,
    Int.bmod_add_bmod, Int.mul_comm, Int.mul_tdiv_add_tmod]
  exact a.toInt_bmod

lemma natAbs_mod_lt (a : Int64) {b : Int64} (hb : b ≠ 0) :
    (a % b).toInt.natAbs < b.toInt.natAbs := by
  have hb' : b.toInt ≠ 0 := fun h => hb (Int64.toInt_inj.mp h)
  rw [Int64.toInt_mod, Int.natAbs_tmod]
  exact Nat.mod_lt _ (Int.natAbs_pos.mpr hb')

lemma sign_mod (a b : Int64) : (a % b).toInt = 0 ∨ (a % b).toInt.sign = a.toInt.sign := by
  rw [Int64.toInt_mod, Int.sign_tmod]
  split_ifs with h
  · exact .inl (Int.tmod_eq_zero_of_dvd h)
  · exact .inr rfl

/-- Only one quotient of integers is not an integer. -/
lemma toInt_div_of_ne {a b : Int64} (h : ¬(a = Int64.minValue ∧ b = -1)) :
    (a / b).toInt = a.toInt.tdiv b.toInt := by
  by_cases ha : a = Int64.minValue
  · exact Int64.toInt_div_of_ne_right a b fun hb => h ⟨ha, hb⟩
  · exact Int64.toInt_div_of_ne_left a b ha

/-! ### Operators on integers -/

namespace BinaryOp

/-- An operator makes an integer of two integers. -/
def Makes (op : BinaryOp) (a b c : Int64) : Prop := op.evaluate (.int a) (.int b) = .ok (.int c)

/-- An operator that is applied to results of operators. -/
def onResults (op : BinaryOp) (x y : Except Stop Value) : Except Stop Value := do
  op.evaluate (← x) (← y)

end BinaryOp

lemma ok_int {a b : Int64} (h : a = b) :
    (Except.ok (.int a) : Except Stop Value) = .ok (.int b) := by
  rw [h]

open BinaryOp

/-- Sums, differences and products, negation, and counting up and down: they are what they are for
numbers, reduced. -/
structure WrapsAround (a b : Int64) : Prop where
  sum : ∃ c, add.Makes a b c ∧ Reduces (a.toInt + b.toInt) c
  difference : ∃ c, sub.Makes a b c ∧ Reduces (a.toInt - b.toInt) c
  product : ∃ c, mul.Makes a b c ∧ Reduces (a.toInt * b.toInt) c
  negative : ∃ c, (Value.int a).negate = .ok (.int c) ∧ Reduces (-a.toInt) c
  next : ∃ c, (Value.int a).increment = .ok (.int c) ∧ Reduces (a.toInt + 1) c
  previous : ∃ c, (Value.int a).decrement = .ok (.int c) ∧ Reduces (a.toInt - 1) c

lemma wrapsAround (a b : Int64) : WrapsAround a b where
  sum := ⟨a + b, rfl, reduces_of_bmod (a.toInt_add b)⟩
  difference := ⟨a - b, rfl, reduces_of_bmod (a.toInt_sub b)⟩
  product := ⟨a * b, rfl, reduces_of_bmod (a.toInt_mul b)⟩
  negative := ⟨-a, rfl, reduces_of_bmod a.toInt_neg⟩
  next := ⟨a + 1, rfl, reduces_of_bmod (a.toInt_add 1)⟩
  previous := ⟨a - 1, rfl, reduces_of_bmod (a.toInt_sub 1)⟩

/-- The laws of a commutative ring. -/
structure RingLaws (x y z zero one : Except Stop Value) : Prop where
  add_assoc : add.onResults (add.onResults x y) z = add.onResults x (add.onResults y z)
  add_comm : add.onResults x y = add.onResults y x
  add_zero : add.onResults x zero = x
  add_neg : add.onResults x (x >>= Value.negate) = zero
  sub_eq : sub.onResults x y = add.onResults x (y >>= Value.negate)
  mul_assoc : mul.onResults (mul.onResults x y) z = mul.onResults x (mul.onResults y z)
  mul_comm : mul.onResults x y = mul.onResults y x
  mul_one : mul.onResults x one = x
  mul_add : mul.onResults x (add.onResults y z) =
    add.onResults (mul.onResults x y) (mul.onResults x z)
  neg_eq : (x >>= Value.negate) = sub.onResults zero x
  inc_eq : (x >>= Value.increment) = add.onResults x one
  dec_inc : (x >>= Value.increment >>= Value.decrement) = x

lemma ringLaws (a b c : Int64) :
    RingLaws (.ok (.int a)) (.ok (.int b)) (.ok (.int c)) (.ok (.int 0)) (.ok (.int 1)) where
  add_assoc := ok_int (Int64.add_assoc a b c)
  add_comm := ok_int (Int64.add_comm a b)
  add_zero := ok_int (Int64.add_zero a)
  add_neg := ok_int (Int64.add_right_neg a)
  sub_eq := ok_int (Int64.sub_eq_add_neg a b)
  mul_assoc := ok_int (Int64.mul_assoc a b c)
  mul_comm := ok_int (Int64.mul_comm a b)
  mul_one := ok_int (Int64.mul_one a)
  mul_add := ok_int Int64.mul_add
  neg_eq := ok_int (Int64.zero_sub a).symm
  inc_eq := rfl
  dec_inc := ok_int (Int64.add_sub_cancel a 1)

/-- Division fails for zero, and for nothing else. Quotient and remainder make up the number, the
remainder is smaller than the divisor and has the sign of the number, and the quotient is truncated
toward zero. One quotient is too large, and wraps around. -/
structure Divides (a b : Int64) : Prop where
  quo_fails : quo.evaluate (.int a) (.int b) = .error (.fault .divisionByZero) ↔ b = 0
  rem_fails : rem.evaluate (.int a) (.int b) = .error (.fault .divisionByZero) ↔ b = 0
  divided : b ≠ 0 → ∃ q r, quo.Makes a b q ∧ rem.Makes a b r ∧
    add.onResults (mul.evaluate (.int q) (.int b)) (.ok (.int r)) = .ok (.int a) ∧
    r.toInt.natAbs < b.toInt.natAbs ∧ (r.toInt = 0 ∨ r.toInt.sign = a.toInt.sign) ∧
    (a = Int64.minValue ∧ b = -1 → q = Int64.minValue ∧ r = 0) ∧
    (¬(a = Int64.minValue ∧ b = -1) → q.toInt = a.toInt.tdiv b.toInt)

lemma quo_evaluate (a b : Int64) : quo.evaluate (.int a) (.int b) =
    if b = 0 then .error (.fault .divisionByZero) else .ok (.int (a / b)) := rfl

lemma rem_evaluate (a b : Int64) : rem.evaluate (.int a) (.int b) =
    if b = 0 then .error (.fault .divisionByZero) else .ok (.int (a % b)) := rfl

lemma divides (a b : Int64) : Divides a b where
  quo_fails := by
    rw [quo_evaluate]
    split_ifs with hb <;> simp [hb]
  rem_fails := by
    rw [rem_evaluate]
    split_ifs with hb <;> simp [hb]
  divided hb := by
    refine ⟨a / b, a % b, ?_, ?_, ?_, natAbs_mod_lt a hb, sign_mod a b, ?_, toInt_div_of_ne⟩
    · rw [Makes, quo_evaluate, if_neg hb]
    · rw [Makes, rem_evaluate, if_neg hb]
    · exact ok_int (div_mul_add_mod a b)
    · rintro ⟨rfl, rfl⟩
      exact ⟨by decide, by decide⟩

/-- Conjunction and disjunction of bits: together they add up to both operands, and each absorbs the
other. -/
structure Bitwise (a b : Int64) : Prop where
  made : ∃ c d, and.Makes a b c ∧ or.Makes a b d ∧
    (∀ i, c.toBitVec.getLsbD i = (a.toBitVec.getLsbD i && b.toBitVec.getLsbD i)) ∧
    ∀ i, d.toBitVec.getLsbD i = (a.toBitVec.getLsbD i || b.toBitVec.getLsbD i)
  sum : add.onResults (and.evaluate (.int a) (.int b)) (or.evaluate (.int a) (.int b)) =
    add.evaluate (.int a) (.int b)
  and_or : and.onResults (.ok (.int a)) (or.evaluate (.int a) (.int b)) = .ok (.int a)
  or_and : or.onResults (.ok (.int a)) (and.evaluate (.int a) (.int b)) = .ok (.int a)

lemma bitwise (a b : Int64) : Bitwise a b where
  made := by
    refine ⟨a &&& b, a ||| b, rfl, rfl, fun i => ?_, fun i => ?_⟩
    · rw [Int64.toBitVec_and, BitVec.getLsbD_and]
    · rw [Int64.toBitVec_or, BitVec.getLsbD_or]
  sum := ok_int (and_add_or a b)
  and_or := by
    have habsorb : ∀ x y : Bool, (x && (x || y)) = x := by decide
    refine ok_int (toBitVec_getLsbD_ext fun i => ?_)
    rw [Int64.toBitVec_and, Int64.toBitVec_or, BitVec.getLsbD_and, BitVec.getLsbD_or, habsorb]
  or_and := by
    have habsorb : ∀ x y : Bool, (x || (x && y)) = x := by decide
    refine ok_int (toBitVec_getLsbD_ext fun i => ?_)
    rw [Int64.toBitVec_or, Int64.toBitVec_and, BitVec.getLsbD_or, BitVec.getLsbD_and, habsorb]

/-! ### Nodes of operators -/

/-- A stop that is a fault, and so neither a panic nor an operation without an end. -/
def Stop.IsFault (e : Stop) : Prop := ∃ φ, e = .fault φ

/-- The number of operands that an operator is applied to; other kinds have none. -/
def Kind.arity : Kind → Nat
  | .binary _ | .land | .lor => 2
  | .neg | .not | .inc | .dec => 1
  | _ => 0

namespace Program

variable {p : Program} {f : FrameId} {id : NodeId} {n : Node} {s t : Store} {v : Value}
  {a : Int64} {e : Stop}

lemma answers_unary {apply : Value → Except Stop Value} (hn : p.node id = .ok n)
    (hop : p.operation f id n.kind = completely (p.unary f id apply))
    (hv : p.operand f id 0 s = .ok v) : p.Answers f id s (apply v) := by
  refine answers_of_eq hn hop ?_
  simp only [unary, Op.look_bind_apply, Op.except_bind_apply, hv]

/-- An integer is no truth value. -/
lemma answers_logical (hn : p.node id = .ok n) (hk : n.kind = .not ∨ n.kind = .land ∨ n.kind = .lor)
    (hv : p.operand f id 0 s = .ok (.int a)) :
    ∃ op, p.Answers f id s (.error ((Value.int a).mismatch op "bool")) := by
  rcases hk with hk | hk | hk
  · refine ⟨"!", answers_of_eq hn (by rw [hk]; rfl) ?_⟩
    simp only [lnot, Op.look_bind_apply, Op.except_bind_apply, hv, Value.asBool]
  · refine ⟨"&&", answers_of_eq hn (by rw [hk]; rfl) ?_⟩
    simp only [land, Op.look_bind_apply, Op.except_bind_apply, hv, Value.asBool]
  · refine ⟨"||", answers_of_eq hn (by rw [hk]; rfl) ?_⟩
    simp only [lor, Op.look_bind_apply, Op.except_bind_apply, hv, Value.asBool]

/-- A result goes to the node's own slot, or there is a fault. -/
lemma isFault_of_setOwn (hn : p.node id = .ok n) (h : p.setOwn f id v s = .error e t) :
    e.IsFault := by
  rw [setOwn, Op.except_bind_apply, hn] at h
  cases hslot : n.slot with
  | none =>
    simp only [hslot, Op.throw_apply] at h
    cases h
    exact ⟨_, rfl⟩
  | some i =>
    simp only [hslot, Op.setSlot, Op.bind_apply, Op.get_apply] at h
    split_ifs at h
    · cases h
    · cases h
      exact ⟨_, rfl⟩

/-- A node that answers with a value or with a fault stops with faults only. -/
lemma Answers.isFault {result : Except Stop Value} (h : p.Answers f id s result)
    (hn : p.node id = .ok n) (hresult : Ends Stop.IsFault (fun _ => True) result)
    (he : p.perform f id s = .error e t) : e.IsFault := by
  unfold Answers at h
  rw [he] at h
  cases result with
  | error e' =>
    cases h
    exact hresult
  | ok v =>
    dsimp only at h
    rw [completely, Op.bind_apply] at h
    cases hown : p.setOwn f id v s with
    | ok _ _ =>
      rw [hown] at h
      cases h
    | error e' t' =>
      rw [hown] at h
      cases h
      exact isFault_of_setOwn hn hown

/-- Nodes of operators answer with the results of the operators, and when they are applied to
integers they stop with faults only. -/
structure Operates (p : Program) (f : FrameId) (id : NodeId) (s : Store) (n : Node) : Prop where
  binary : ∀ op v w, n.kind = .binary op → p.operand f id 0 s = .ok v →
    p.operand f id 1 s = .ok w → p.Answers f id s (op.evaluate v w)
  neg : ∀ v, n.kind = .neg → p.operand f id 0 s = .ok v → p.Answers f id s v.negate
  inc : ∀ v, n.kind = .inc → p.operand f id 0 s = .ok v → p.Answers f id s v.increment
  dec : ∀ v, n.kind = .dec → p.operand f id 0 s = .ok v → p.Answers f id s v.decrement
  calm : 0 < n.kind.arity → (∀ i < n.kind.arity, ∃ a, p.operand f id i s = .ok (.int a)) →
    ∀ e t, p.perform f id s = .error e t → e.IsFault

lemma operates (hn : p.node id = .ok n) : p.Operates f id s n where
  binary op v w hk hv hw := answers_binary hn hk hv hw
  neg v hk hv := answers_unary hn (by rw [hk]; rfl) hv
  inc v hk hv := answers_unary hn (by rw [hk]; rfl) hv
  dec v hk hv := answers_unary hn (by rw [hk]; rfl) hv
  calm harity hints e t he := by
    obtain ⟨a, ha⟩ := hints 0 harity
    have hunary : ∀ apply, p.operation f id n.kind = completely (p.unary f id apply) →
        Ends Stop.IsFault (fun _ => True) (apply (.int a)) → e.IsFault :=
      fun apply hop hends => (answers_unary hn hop ha).isFault hn hends he
    have hlogical : n.kind = .not ∨ n.kind = .land ∨ n.kind = .lor → e.IsFault := fun hk => by
      obtain ⟨op, hanswers⟩ := answers_logical hn hk ha
      exact hanswers.isFault hn ⟨_, rfl⟩ he
    -- Operators on truth values meet a number first, and say so in a fault.
    cases hk : n.kind with
    | binary op =>
      obtain ⟨b, hb⟩ := hints 1 (by rw [hk]; exact Nat.lt_succ_self 1)
      refine (answers_binary hn hk ha hb).isFault hn ?_ he
      exact (ends_evaluate (fun φ _ => ⟨φ, rfl⟩) op _ _).mono fun _ _ => trivial
    | neg => exact hunary Value.negate (by rw [hk]; rfl) trivial
    | inc => exact hunary Value.increment (by rw [hk]; rfl) trivial
    | dec => exact hunary Value.decrement (by rw [hk]; rfl) trivial
    | not => exact hlogical (.inl hk)
    | land => exact hlogical (.inr (.inl hk))
    | lor => exact hlogical (.inr (.inr hk))
    | _ =>
      rw [hk] at harity
      exact absurd harity (Nat.lt_irrefl 0)

/-- Integers are numbers of 64 bits in two's complement: the operators obey their laws, and every
node of an operator answers with what the operator makes of its operands. Applied to integers, no
node of an operator panics. -/
theorem integers_wrap :
    (∀ a b c : Int64, WrapsAround a b ∧ Divides a b ∧ Bitwise a b ∧
      RingLaws (.ok (.int a)) (.ok (.int b)) (.ok (.int c)) (.ok (.int 0)) (.ok (.int 1))) ∧
    ∀ (p : Program) (f : FrameId) (id : NodeId) (s : Store) (n : Node), p.node id = .ok n →
      p.Operates f id s n :=
  ⟨fun a b c => ⟨wrapsAround a b, divides a b, bitwise a b, ringLaws a b c⟩,
    fun _ _ _ _ _ hn => operates hn⟩

/-- A node that divides the smallest integer by the one below zero. -/
def dividing : Program where
  graph := {
    globals := 1
    nodes := #[
      { kind := .basicLit, payload := some (.literal (.int Int64.minValue)) },
      { kind := .basicLit, payload := some (.literal (.int (-1))) },
      { kind := .binary .quo, children := [⟨0⟩, ⟨1⟩], slot := some 0 }] }
  constants := #[some (.int Int64.minValue), some (.int (-1)), none]
  natives := .empty
  config := {}

theorem integers_wrap_dividing :
    (∃ q r, BinaryOp.quo.Makes Int64.minValue (-1) q ∧ BinaryOp.rem.Makes Int64.minValue (-1) r ∧
      q = Int64.minValue ∧ r = 0) ∧
    dividing.Answers globalFrame ⟨2⟩ (Machine.ofProgram dividing true).store
      (.ok (.int Int64.minValue)) ∧
    ∀ e t, dividing.perform globalFrame ⟨2⟩ (Machine.ofProgram dividing true).store = .error e t →
      e.IsFault := by
  obtain ⟨hlaws, hnodes⟩ := integers_wrap
  have hoperates := hnodes dividing globalFrame ⟨2⟩ (Machine.ofProgram dividing true).store _ rfl
  obtain ⟨-, hdivides, -⟩ := hlaws Int64.minValue (-1) 0
  obtain ⟨q, r, hq, hr, -, -, -, hlast, -⟩ := hdivides.divided (by decide)
  refine ⟨⟨q, r, hq, hr, hlast ⟨rfl, rfl⟩⟩, ?_, ?_⟩
  · exact hoperates.binary .quo _ _ rfl rfl rfl
  · refine hoperates.calm (by decide) fun i hi => ?_
    have hcases : i = 0 ∨ i = 1 := by
      change i < 2 at hi
      omega
    rcases hcases with rfl | rfl
    · exact ⟨_, rfl⟩
    · exact ⟨_, rfl⟩

end Program

end Flowgraph
