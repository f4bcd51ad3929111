import Flowgraph.Proofs.Equality
import Flowgraph.Proofs.Loops.Keys

/-!
# Dictionaries and their changes

A dictionary is a function on values up to equality. What it holds under a key is what was put there
last and not deleted since, and the form in which a key is stored is the one in which it was put
there first. Changes are listed with the latest first.
-/

namespace Flowgraph

namespace Value

variable {k l v : Value}

/-- Equal values are equal to the same values. -/
lemma beq_congr_right (h : (k == l) = true) (v : Value) : (v == k) = (v == l) := by
  rw [Bool.eq_iff_iff]
  exact ⟨fun hv => BEq.trans hv h, fun hv => BEq.trans hv (BEq.symm h)⟩

/-- A value that is equal to another one differs from what the other one differs from. -/
lemma beq_false_of_beq (h : (v == l) = true) (hne : (l == k) = false) : (v == k) = false := by
  by_contra hv
  rw [BEq.trans (BEq.symm h) (Bool.of_not_eq_false hv)] at hne
  cases hne

lemma beq_comm_false (h : (k == l) = false) : (l == k) = false := by
  by_contra hl
  rw [BEq.symm (Bool.of_not_eq_false hl)] at h
  cases h

lemma beq_self_of_beq (h : (k == l) = true) : (k == k) = true := BEq.trans h (BEq.symm h)

end Value

namespace Dict

variable {D : Dict} {e : Value × Value} {k k' l v w : Value}

/-! ### What is found after a change -/

/-- Equal keys find the same. -/
lemma get?_congr (h : (k == l) = true) (D : Dict) : D.get? k = D.get? l := by
  simp only [get?, Value.beq_congr_right h]

lemma get?_insert (D : Dict) (l w k : Value) :
    (D.insert l w).get? k = if (l == k) = true then some w else D.get? k := by
  split_ifs with h
  · rw [← get?_congr h]
    exact get?_insert_self (Value.beq_self_of_beq h)
  · obtain ⟨es⟩ := D
    simp only [insert, get?]
    induction es with
    | nil => simp [insertEntry, h]
    | cons e es ih =>
      by_cases he : (e.1 == l) = true
      · have hek := Value.beq_false_of_beq he (Bool.eq_false_iff.mpr h)
        simp [insertEntry, he, hek]
      · by_cases hek : (e.1 == k) = true
        · simp [insertEntry, he, hek]
        · simpa [insertEntry, he, hek] using ih

lemma get?_erase (h : D.Proper) (l k : Value) :
    (D.erase l).get? k = if (l == k) = true then none else D.get? k := by
  obtain ⟨es⟩ := D
  simp only [erase, get?, Proper] at h ⊢
  induction es with
  | nil => simp
  | cons e es ih =>
    obtain ⟨he, hes⟩ := List.pairwise_cons.mp h
    by_cases hel : (e.1 == l) = true
    · by_cases hlk : (l == k) = true
      · -- No other key is equal to the one that is erased.
        have hnone : ∀ a ∈ es, ¬(a.1 == k) = true := by
          intro a ha hak
          have hea : (e.1 == a.1) = true := BEq.trans hel (BEq.trans hlk (BEq.symm hak))
          rw [he a ha] at hea
          cases hea
        have hfind : es.find? (fun e => e.1 == k) = none := List.find?_eq_none.mpr hnone
        simp [hel, hlk, hfind]
      · have hek := Value.beq_false_of_beq hel (Bool.eq_false_iff.mpr hlk)
        simp [hel, hlk, hek]
    · by_cases hek : (e.1 == k) = true
      · have hlk : ¬(l == k) = true := fun hlk => hel (BEq.trans hek (BEq.symm hlk))
        simp [hel, hek, hlk]
      · simpa [hel, hek] using ih hes

/-! ### The stored forms of keys -/

lemma mem_keys : k ∈ D.keys ↔ ∃ e ∈ D.entries, e.1 = k := by
  rw [keys, List.mem_reverse, List.mem_map]

lemma contains_eq_true : D.contains k = true ↔ ∃ l ∈ D.keys, (l == k) = true := by
  simp only [contains, List.any_eq_true, mem_keys]
  constructor
  · rintro ⟨e, he, hk⟩
    exact ⟨_, ⟨e, he, rfl⟩, hk⟩
  · rintro ⟨_, ⟨e, he, rfl⟩, hk⟩
    exact ⟨e, he, hk⟩

/-- Among the keys that are equal to some value, an insertion adds one if there was none. -/
lemma mem_keys_insert (D : Dict) (l w : Value) :
    k ∈ (D.insert l w).keys ↔ k ∈ D.keys ∨ k = l ∧ D.contains l = false := by
  cases hl : D.contains l with
  | false => simp [keys_insert_of_absent hl, or_comm]
  | true => simp [keys_insert_of_present hl]

lemma mem_keys_erase (h : (k == l) = false) : k ∈ (D.erase l).keys ↔ k ∈ D.keys := by
  simp only [mem_keys, erase]
  constructor
  · rintro ⟨e, he, rfl⟩
    exact ⟨e, List.mem_of_mem_eraseP he, rfl⟩
  · rintro ⟨e, he, rfl⟩
    exact ⟨e, (List.mem_eraseP_of_neg (p := fun e => e.1 == l) (by simp [h])).mpr he, rfl⟩

/-! ### Changes -/

/-- What is done to a dictionary: a value is put under a key, or the entry of a key is deleted. -/
inductive Change where
  | put (k v : Value)
  | delete (k : Value)

/-- The key of a change. -/
def Change.key : Change → Value
  | put k _ | delete k => k

/-- The dictionary after a change. -/
def change (D : Dict) : Change → Dict
  | .put k v => D.insert k v
  | .delete k => D.erase k

/-- What an empty dictionary has become by changes. -/
def ofChanges : List Change → Dict
  | [] => {}
  | c :: H => (ofChanges H).change c

variable {H : List Change} {c : Change}

/-- A value is the latest under a key: it was put there, and since then nothing was put there or
deleted. -/
def Latest (H : List Change) (k v : Value) : Prop :=
  ∃ later k' earlier, H = later ++ .put k' v :: earlier ∧ (k' == k) = true ∧
    ∀ c ∈ later, (c.key == k) = false

/-- A key is stored in a form: it was put in this form when it was absent, and it has not been
deleted since. -/
def Stored (H : List Change) (k k' : Value) : Prop :=
  ∃ later v earlier, H = later ++ .put k' v :: earlier ∧ (k' == k) = true ∧
    (∀ w, ¬Latest earlier k w) ∧ ∀ l, .delete l ∈ later → (l == k) = false

lemma built_ofChanges (H : List Change) : (ofChanges H).Built := by
  induction H with
  | nil => exact .empty
  | cons c H ih =>
    cases c with
    | put k v => exact ih.insert k v
    | delete k => exact ih.erase k

lemma not_latest_nil : ¬Latest [] k v := by
  rintro ⟨later, k', earlier, h, -⟩
  cases later <;> cases h

lemma latest_put :
    Latest (.put l w :: H) k v ↔ if (l == k) = true then v = w else Latest H k v := by
  constructor
  · rintro ⟨later, k', earlier, h, hk, hlater⟩
    cases later with
    | nil =>
      cases h
      rw [if_pos hk]
    | cons c later =>
      obtain ⟨rfl, rfl⟩ := List.cons.inj h
      rw [if_neg (by simp [show (l == k) = false from hlater _ List.mem_cons_self])]
      exact ⟨later, k', earlier, rfl, hk, fun c hc => hlater c (List.mem_cons_of_mem _ hc)⟩
  · intro h
    split_ifs at h with hl
    · exact ⟨[], l, H, h ▸ rfl, hl, fun c hc => absurd hc List.not_mem_nil⟩
    · obtain ⟨later, k', earlier, rfl, hk, hlater⟩ := h
      exact ⟨_ :: later, k', earlier, rfl, hk,
        List.forall_mem_cons.mpr ⟨Bool.eq_false_iff.mpr hl, hlater⟩⟩

lemma latest_delete : Latest (.delete l :: H) k v ↔ (l == k) = false ∧ Latest H k v := by
  constructor
  · rintro ⟨later, k', earlier, h, hk, hlater⟩
    cases later with
    | nil => cases h
    | cons c later =>
      obtain ⟨rfl, rfl⟩ := List.cons.inj h
      obtain ⟨hl, hlater⟩ := List.forall_mem_cons.mp hlater
      exact ⟨hl, later, k', earlier, rfl, hk, hlater⟩
  · rintro ⟨hl, later, k', earlier, rfl, hk, hlater⟩
    exact ⟨_ :: later, k', earlier, rfl, hk, List.forall_mem_cons.mpr ⟨hl, hlater⟩⟩

/-- Under a key is found what was put there last. -/
theorem get?_ofChanges (H : List Change) (k v : Value) :
    (ofChanges H).get? k = some v ↔ Latest H k v := by
  induction H with
  | nil =>
    constructor
    · intro h
      cases h
    · exact fun h => absurd h not_latest_nil
  | cons c H ih =>
    cases c with
    | put l w =>
      rw [latest_put, ofChanges, change, get?_insert]
      split_ifs
      · exact Option.some_inj.trans eq_comm
      · exact ih
    | delete l =>
      rw [latest_delete, ofChanges, change, get?_erase (built_ofChanges H).proper, ← ih]
      cases hl : l == k with
      | false => simp
      | true => simp

lemma latest_unique (h : Latest H k v) (h' : Latest H k w) : v = w :=
  Option.some.inj (((get?_ofChanges H k v).mpr h).symm.trans ((get?_ofChanges H k w).mpr h'))

lemma contains_ofChanges (H : List Change) (k : Value) :
    (ofChanges H).contains k = true ↔ ∃ v, Latest H k v := by
  rw [contains_eq_isSome, Option.isSome_iff_exists]
  exact exists_congr (get?_ofChanges H k)

lemma get?_ofChanges_eq_none (H : List Change) (k : Value) :
    (ofChanges H).get? k = none ↔ ∀ v, ¬Latest H k v := by
  rw [Option.eq_none_iff_forall_ne_some]
  exact forall_congr' fun v => not_congr (get?_ofChanges H k v)

lemma stored_put : Stored (.put l w :: H) k k' ↔
    Stored H k k' ∨ k' = l ∧ (l == k) = true ∧ ∀ v, ¬Latest H k v := by
  constructor
  · rintro ⟨later, v, earlier, h, hk, habsent, hlater⟩
    cases later with
    | nil =>
      cases h
      exact .inr ⟨rfl, hk, habsent⟩
    | cons c later =>
      obtain ⟨rfl, rfl⟩ := List.cons.inj h
      exact .inl ⟨later, v, earlier, rfl, hk, habsent,
        fun l hl => hlater l (List.mem_cons_of_mem _ hl)⟩
  · rintro (⟨later, v, earlier, rfl, hk, habsent, hlater⟩ | ⟨rfl, hk, habsent⟩)
    · refine ⟨_ :: later, v, earlier, rfl, hk, habsent, fun l hl => hlater l ?_⟩
      exact (List.mem_cons.mp hl).resolve_left Change.noConfusion
    · exact ⟨[], w, H, rfl, hk, habsent, fun l hl => absurd hl List.not_mem_nil⟩

lemma stored_delete : Stored (.delete l :: H) k k' ↔ (l == k) = false ∧ Stored H k k' := by
  constructor
  · rintro ⟨later, v, earlier, h, hk, habsent, hlater⟩
    cases later with
    | nil => cases h
    | cons c later =>
      obtain ⟨rfl, rfl⟩ := List.cons.inj h
      exact ⟨hlater l List.mem_cons_self, later, v, earlier, rfl, hk, habsent,
        fun l hl => hlater l (List.mem_cons_of_mem _ hl)⟩
  · rintro ⟨hl, later, v, earlier, rfl, hk, habsent, hlater⟩
    refine ⟨_ :: later, v, earlier, rfl, hk, habsent, fun l' hl' => ?_⟩
    rcases List.mem_cons.mp hl' with h | h
    · cases h
      exact hl
    · exact hlater l' h

/-- A key is stored in the form in which it was put first. -/
theorem mem_keys_ofChanges (H : List Change) (k k' : Value) :
    k' ∈ (ofChanges H).keys ∧ (k' == k) = true ↔ Stored H k k' := by
  induction H with
  | nil =>
    constructor
    · rintro ⟨h, -⟩
      cases h
    · rintro ⟨later, v, earlier, h, -⟩
      cases later <;> cases h
  | cons c H ih =>
    cases c with
    | put l w =>
      have habsent : (l == k) = true → ((ofChanges H).contains l = false ↔ ∀ v, ¬Latest H k v) := by
        intro hl
        rw [contains_eq_isSome, get?_congr hl, ← get?_ofChanges_eq_none, Option.isSome_eq_false_iff,
          Option.isNone_iff_eq_none]
      rw [stored_put, ← ih, ofChanges, change, mem_keys_insert]
      constructor
      · rintro ⟨h | ⟨rfl, hl⟩, hk⟩
        · exact .inl ⟨h, hk⟩
        · exact .inr ⟨rfl, hk, (habsent hk).mp hl⟩
      · rintro (⟨h, hk⟩ | ⟨rfl, hk, hnone⟩)
        · exact ⟨.inl h, hk⟩
        · exact ⟨.inr ⟨rfl, (habsent hk).mpr hnone⟩, hk⟩
    | delete l =>
      rw [stored_delete, ← ih, ofChanges, change]
      constructor
      · rintro ⟨h, hk⟩
        have hl : (l == k) = false := by
          by_contra hl
          have hpresent := contains_eq_true.mpr ⟨k', h, hk⟩
          rw [contains_eq_isSome, get?_erase (built_ofChanges H).proper,
            if_pos (Bool.of_not_eq_false hl)] at hpresent
          cases hpresent
        exact ⟨hl, (mem_keys_erase (Value.beq_false_of_beq hk (Value.beq_comm_false hl))).mp h, hk⟩
      · rintro ⟨hl, h, hk⟩
        exact ⟨(mem_keys_erase (Value.beq_false_of_beq hk (Value.beq_comm_false hl))).mpr h, hk⟩

/-! ### The number of keys -/

/-- Some keys are all keys that are present, each once: no two of them are equal. -/
structure Enumerates (H : List Change) (ks : List Value) : Prop where
  unequal : ks.Pairwise fun k l => (k == l) = false
  present : ∀ k ∈ ks, ∃ v, Latest H k v
  complete : ∀ k v, Latest H k v → ∃ l ∈ ks, (l == k) = true

/-- If unequal keys all have equals among other keys, there are no more of them. -/
lemma length_le_of_unequal {ks ls : List Value} (h : ks.Pairwise fun k l => (k == l) = false)
    (hls : ∀ k ∈ ks, ∃ l ∈ ls, (l == k) = true) : ks.length ≤ ls.length := by
  induction ks generalizing ls with
  | nil => exact Nat.zero_le _
  | cons k ks ih =>
    obtain ⟨hk, hks⟩ := List.pairwise_cons.mp h
    obtain ⟨⟨l, hl, hlk⟩, hrest⟩ := List.forall_mem_cons.mp hls
    obtain ⟨before, after, rfl⟩ := List.append_of_mem hl
    -- The equal of the first key is not an equal of any other key, so the others do without it.
    have hothers : ∀ k' ∈ ks, ∃ l' ∈ before ++ after, (l' == k') = true := by
      intro k' hk'
      obtain ⟨l', hl', hlk'⟩ := hrest k' hk'
      refine ⟨l', ?_, hlk'⟩
      rcases List.mem_append.mp hl' with h | h
      · exact List.mem_append_left _ h
      · rcases List.mem_cons.mp h with rfl | h
        · have hkk' : (k == k') = true := BEq.trans (BEq.symm hlk) hlk'
          rw [hk k' hk'] at hkk'
          cases hkk'
        · exact List.mem_append_right _ h
    have hle := ih hks hothers
    simp only [List.length_cons, List.length_append] at hle ⊢
    omega

lemma Enumerates.length_le {ks ls : List Value} (h : Enumerates H ks) (h' : Enumerates H ls) :
    ks.length ≤ ls.length :=
  length_le_of_unequal h.unequal fun k hk => (h.present k hk).elim fun v hv => h'.complete k v hv

/-- What is stored was put there. -/
lemma exists_put_of_mem_keys (h : k ∈ (ofChanges H).keys) : ∃ v, .put k v ∈ H := by
  induction H with
  | nil => cases h
  | cons c H ih =>
    cases c with
    | put l w =>
      rcases (mem_keys_insert _ l w).mp h with h | ⟨rfl, -⟩
      · exact (ih h).imp fun v hv => List.mem_cons_of_mem _ hv
      · exact ⟨w, List.mem_cons_self⟩
    | delete l =>
      obtain ⟨e, he, rfl⟩ := mem_keys.mp h
      have hmem := mem_keys.mpr ⟨e, List.mem_of_mem_eraseP he, rfl⟩
      exact (ih hmem).imp fun v hv => List.mem_cons_of_mem _ hv

/-- The stored forms are all keys that are present, if all keys are equal to themselves. -/
lemma enumerates_keys (h : ∀ c ∈ H, (c.key == c.key) = true) :
    Enumerates H (ofChanges H).keys where
  unequal := by
    rw [keys, List.pairwise_reverse, List.pairwise_map]
    exact (built_ofChanges H).proper.imp fun hne => Value.beq_comm_false hne
  present k hk := by
    obtain ⟨v, hv⟩ := exists_put_of_mem_keys hk
    rw [← contains_ofChanges]
    exact contains_eq_true.mpr ⟨k, hk, h _ hv⟩
  complete k v hv := contains_eq_true.mp ((contains_ofChanges H k).mpr ⟨v, hv⟩)

/-- The size is the number of keys that are present. -/
theorem size_ofChanges (h : ∀ c ∈ H, (c.key == c.key) = true) {ks : List Value}
    (hks : Enumerates H ks) : (ofChanges H).size = ks.length := by
  have hkeys := enumerates_keys h
  have hsize : (ofChanges H).keys.length = (ofChanges H).size := by
    rw [keys, List.length_reverse, List.length_map, size]
  exact hsize.symm.trans (Nat.le_antisymm (hkeys.length_le hks) (hks.length_le hkeys))

/-! ### Several insertions -/

/-- What is put under several keys, one after the other. -/
def puts (pairs : List (Value × Value)) : List Change :=
  (pairs.map fun e => .put e.1 e.2).reverse

lemma puts_cons (e : Value × Value) (pairs : List (Value × Value)) :
    puts (e :: pairs) = puts pairs ++ [.put e.1 e.2] := by
  rw [puts, List.map_cons, List.reverse_cons, puts]

lemma foldl_insert (pairs : List (Value × Value)) (H : List Change) :
    pairs.foldl (fun (D : Dict) (k, v) => D.insert k v) (ofChanges H) =
      ofChanges (puts pairs ++ H) := by
  induction pairs generalizing H with
  | nil => rfl
  | cons e pairs ih =>
    rw [puts_cons, List.append_assoc]
    exact ih (.put e.1 e.2 :: H)

/-! ### Deletion -/

/-- The value that is returned is the one that would have been found. -/
theorem remove_eq (D : Dict) (k : Value) : D.remove k = (D.get? k, D.erase k) := by
  obtain ⟨es⟩ := D
  have htake : takeEntry k es = ((⟨es⟩ : Dict).get? k, es.eraseP fun e => e.1 == k) := by
    simp only [get?]
    induction es with
    | nil => rfl
    | cons e es ih =>
      by_cases he : (e.1 == k) = true
      · simp [takeEntry, he]
      · simp [takeEntry, he, ih]
  rw [remove, htake, erase]

end Dict

end Flowgraph
