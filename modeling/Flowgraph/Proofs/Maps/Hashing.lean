import Flowgraph.Proofs.Maps.Changes

/-!
# Keys that are hashed

A table that is hashed looks for a key only among the keys with the same hash. It finds the same as
if it looked among all keys, since values that are equal are hashed alike: by their content if they
are scalars, by what they name if they are handles, and both zeros in the same way.
-/

namespace Flowgraph

/-- What is hashed of a value besides its family. -/
inductive Essence where
  | nothing
  | bool (b : Bool)
  | int (i : Int64)
  | bits (b : UInt64)
  | str (s : String)
  /-- A block, a dictionary or a channel, by its place. -/
  | place (n : Nat)
  | element (n i : Nat)
  | func (decl : NodeId) (env : Option FrameId)

namespace Value

variable {v w : Value} {hash : Nat × Essence → UInt64}

/-- What is hashed of a value. -/
def hashed (v : Value) : Nat × Essence :=
  (v.family, match v with
    | nil => .nothing
    | bool b => .bool b
    | int i => .int i
    | float x => .bits (if x == 0 then 0 else x.toBits)
    | str s => .str s
    | slice b | struct b => .place b.index
    | pointer b i => .element b.index i
    | map d => .place d.index
    | chan c => .place c.index
    | func decl env => .func decl env
    | native name => .str name)

/-- Values that are equal are hashed alike. -/
theorem hashed_eq_of_beq (h : (v == w) = true) : v.hashed = w.hashed := by
  by_cases hv : ∃ x, v = float x
  · obtain ⟨x, rfl⟩ := hv
    obtain ⟨y, rfl, hxy⟩ := exists_float h
    have hzero : (x == 0) = (y == 0) := by
      rw [Bool.eq_iff_iff]
      exact ⟨fun hx => BEq.trans (BEq.symm hxy) hx, fun hy => BEq.trans hxy hy⟩
    have hself : (x == x) = true := BEq.trans hxy (BEq.symm hxy)
    have hbits : (if x == 0 then 0 else x.toBits) = if y == 0 then 0 else y.toBits := by
      rw [hzero]
      split_ifs with hy
      · rfl
      · -- Only zeros are equal without being the same.
        obtain ⟨-, -, rfl | ⟨rfl, rfl⟩ | ⟨rfl, rfl⟩⟩ := Float.beq_iff_ne_nan_and_eq.mp hxy
        · rfl
        · exact absurd (hzero ▸ hself) hy
        · exact absurd (BEq.trans (BEq.symm hxy) hxy) hy
    exact congrArg (fun b => (3, Essence.bits b)) hbits
  · rw [eq_of_beq (fun x hx => hv ⟨x, hx⟩) h]

/-- So keys with other hashes need not be compared. -/
lemma hash_and_beq (hash : Nat × Essence → UInt64) (v w : Value) :
    (hash v.hashed == hash w.hashed && v == w) = (v == w) := by
  cases h : v == w with
  | false => rw [Bool.and_false]
  | true => rw [hashed_eq_of_beq h, beq_self_eq_true, Bool.and_true]

end Value

/-- Look for a key among the keys with the same hash. -/
def Dict.probe (hash : Nat × Essence → UInt64) (D : Dict) (k : Value) : Option Value :=
  let alike := D.entries.filter fun e => hash e.1.hashed == hash k.hashed
  (alike.find? fun e => e.1 == k).map Prod.snd

/-- Whatever the hashes are, a key is found as if it was looked for among all keys. -/
theorem Dict.probe_eq_get? (hash : Nat × Essence → UInt64) (D : Dict) (k : Value) :
    D.probe hash k = D.get? k := by
  rw [probe, List.find?_filter, get?]
  simp only [Bool.decide_and, Bool.decide_eq_true, Value.hash_and_beq]

end Flowgraph
