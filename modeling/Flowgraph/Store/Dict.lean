import Flowgraph.Value.Equality

/-!
# Dictionaries

A dictionary is a list of entries in the order of their first insertion. Keys are found by
equality of values, so a key that differs from itself is never found: it is added anew by
every insertion and stays for good. Writing to a key that is present keeps the key's stored
form and its place. Loops visit the newest keys first.
-/

namespace Flowgraph

/-- Entries in the order of their first insertion. -/
structure Dict where
  entries : List (Value × Value) := []
  deriving Repr, Inhabited

namespace Dict

/-- The value under a key. -/
def get? (d : Dict) (k : Value) : Option Value :=
  (d.entries.find? fun e => e.1 == k).map Prod.snd

/-- Whether a key is present. -/
def contains (d : Dict) (k : Value) : Bool :=
  d.entries.any fun e => e.1 == k

/-- Put a value under a key among the entries. -/
def insertEntry (k v : Value) : List (Value × Value) → List (Value × Value)
  | [] => [(k, v)]
  | e :: es => if e.1 == k then (e.1, v) :: es else e :: insertEntry k v es

/-- Put a value under a key. -/
def insert (d : Dict) (k v : Value) : Dict := ⟨insertEntry k v d.entries⟩

/-- Remove the entry of a key. -/
def erase (d : Dict) (k : Value) : Dict := ⟨d.entries.eraseP fun e => e.1 == k⟩

/-- Take the entry of a key away, and return its value. -/
def takeEntry (k : Value) : List (Value × Value) → Option Value × List (Value × Value)
  | [] => (none, [])
  | e :: es => if e.1 == k then (some e.2, es) else ((takeEntry k es).1, e :: (takeEntry k es).2)

/-- Remove the entry of a key, and return the value that it had. -/
def remove (d : Dict) (k : Value) : Option Value × Dict :=
  ((takeEntry k d.entries).1, ⟨(takeEntry k d.entries).2⟩)

/-- The stored keys, the newest first. -/
def keys (d : Dict) : List Value := (d.entries.map Prod.fst).reverse

/-- The number of entries. -/
def size (d : Dict) : Nat := d.entries.length

/-! ### What is found after a change -/

theorem contains_eq_isSome (d : Dict) (k : Value) : d.contains k = (d.get? k).isSome := by
  simp only [contains, get?, Option.isSome_map]
  rw [Bool.eq_iff_iff, List.any_eq_true, List.find?_isSome]

theorem get?_empty (k : Value) : ({} : Dict).get? k = none := rfl

theorem get?_insert_self {d : Dict} {k v : Value} (hk : (k == k) = true) :
    (d.insert k v).get? k = some v := by
  obtain ⟨es⟩ := d
  simp only [insert, get?]
  induction es with
  | nil => simp [insertEntry, hk]
  | cons e es ih =>
    by_cases h : (e.1 == k) = true
    · simp [insertEntry, h]
    · simpa [insertEntry, h] using ih

/-- An insertion adds an entry exactly when the key was absent. -/
theorem size_insert (d : Dict) (k v : Value) :
    (d.insert k v).size = if d.contains k then d.size else d.size + 1 := by
  obtain ⟨es⟩ := d
  simp only [insert, size, contains]
  induction es with
  | nil => simp [insertEntry]
  | cons e es ih =>
    by_cases h : (e.1 == k) = true
    · simp [insertEntry, h]
    · simp only [Bool.not_eq_true] at h
      simp only [insertEntry, h, List.any_cons, Bool.false_or, List.length_cons, ih,
        Bool.false_eq_true, if_false]
      exact apply_ite (· + 1) _ _ _

/-- A key that was absent comes before all others. -/
theorem keys_insert_of_absent {d : Dict} {k v : Value} (hk : d.contains k = false) :
    (d.insert k v).keys = k :: d.keys := by
  obtain ⟨es⟩ := d
  simp only [contains] at hk
  simp only [insert, keys]
  induction es with
  | nil => rfl
  | cons e es ih =>
    rw [List.any_cons, Bool.or_eq_false_iff] at hk
    simp [insertEntry, hk.1, ih hk.2]

/-- Writing to a key that is present moves nothing. -/
theorem keys_insert_of_present {d : Dict} {k v : Value} (hk : d.contains k = true) :
    (d.insert k v).keys = d.keys := by
  obtain ⟨es⟩ := d
  simp only [contains] at hk
  simp only [insert, keys]
  induction es with
  | nil => simp at hk
  | cons e es ih =>
    by_cases h : (e.1 == k) = true
    · simp [insertEntry, h]
    · simp only [h, List.any_cons, Bool.false_or] at hk
      simp [insertEntry, h, ih hk]

end Dict

end Flowgraph
