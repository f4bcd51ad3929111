import Mathlib.Data.List.Forall2
import Flowgraph.Proofs.Streams.Loop

/-!
# Destinations and what is stored into them

A destination is blank or it denotes a slot. Values that are stored into several destinations go
there from left to right, so that the last one stays where a slot is denoted twice.
-/

namespace Flowgraph

/-- A slot of a frame. -/
abbrev Site := FrameId × Nat

namespace Store

variable {s : Store} {ws : List (Option Site × Value)} {ts : List (Option Site)}
  {vs : List Value}

/-- Write to a site. Where there is none the value is dropped. -/
def write (s : Store) : Option Site → Value → Store
  | none, _ => s
  | some (g, i), v => s.setSlot g i v

/-- Write from left to right. -/
def writeAll (s : Store) (ws : List (Option Site × Value)) : Store :=
  ws.foldl (fun s w => s.write w.1 w.2) s

@[simp] lemma writeAll_nil (s : Store) : s.writeAll [] = s := rfl

@[simp] lemma writeAll_cons (s : Store) (w : Option Site × Value)
    (ws : List (Option Site × Value)) :
    s.writeAll (w :: ws) = (s.write w.1 w.2).writeAll ws := rfl

@[simp] lemma frameSize_write (t : Option Site) (v : Value) (g : FrameId) :
    (s.write t v).frameSize g = s.frameSize g := by
  match t with
  | none => rfl
  | some (h, i) => exact frameSize_setSlot h i v g

@[simp] lemma blocks_write (s : Store) (t : Option Site) (v : Value) :
    (s.write t v).blocks = s.blocks := by
  cases t <;> rfl

lemma frameSize_of_frames {t : Store} (h : t.frames = s.frames) (f : FrameId) :
    t.frameSize f = s.frameSize f := by
  rw [frameSize, slots, frame, h]
  rfl

lemma spares_write {A : FrameId → Nat → Prop} {u : Store} (hs : Spares A u s) {t : Option Site}
    (ht : ∀ l, t = some l → A l.1 l.2) (v : Value) : Spares A u (s.write t v) := by
  match t with
  | none => exact hs
  | some l => exact hs.setSlot (ht l rfl) v

lemma slot?_write_of_ne {t : Option Site} {l : Site} (h : t ≠ some l) (v : Value) :
    (s.write t v).slot? l.1 l.2 = s.slot? l.1 l.2 := by
  match t with
  | none => rfl
  | some (g, i) =>
    refine slot?_setSlot_of_ne (fun hg hi => h ?_) v
    rw [← hg, ← hi]

lemma slot?_write_self {l : Site} (h : l.2 < s.frameSize l.1) (v : Value) :
    (s.write (some l) v).slot? l.1 l.2 = some v :=
  slot?_setSlot_self h v

/-- A slot that nothing is written to keeps its content. -/
lemma slot?_writeAll_of_notMem {l : Site} (h : ∀ w ∈ ws, w.1 ≠ some l) :
    (s.writeAll ws).slot? l.1 l.2 = s.slot? l.1 l.2 := by
  induction ws generalizing s with
  | nil => rfl
  | cons w ws ih =>
    rw [writeAll_cons, ih fun w' hw' => h w' (List.mem_cons_of_mem w hw')]
    exact slot?_write_of_ne (h w List.mem_cons_self) w.2

/-- The last value that is written to a slot stays there. -/
lemma slot?_writeAll {before after : List (Option Site × Value)} {l : Site} {v : Value}
    (hl : l.2 < s.frameSize l.1) (hafter : ∀ w ∈ after, w.1 ≠ some l) :
    (s.writeAll (before ++ (some l, v) :: after)).slot? l.1 l.2 = some v := by
  induction before generalizing s with
  | nil =>
    rw [List.nil_append, writeAll_cons, slot?_writeAll_of_notMem hafter]
    exact slot?_write_self hl v
  | cons w before ih =>
    rw [List.cons_append, writeAll_cons]
    exact ih (by rwa [frameSize_write])

lemma spares_writeAll {A : FrameId → Nat → Prop} {u : Store} (hs : Spares A u s)
    (h : ∀ w ∈ ws, ∀ l, w.1 = some l → A l.1 l.2) : Spares A u (s.writeAll ws) := by
  induction ws generalizing s with
  | nil => exact hs
  | cons w ws ih =>
    rw [writeAll_cons]
    exact ih (spares_write hs (h w List.mem_cons_self) w.2)
      fun w' hw' => h w' (List.mem_cons_of_mem w hw')

/-- Writing changes nothing but frames. -/
lemma writeAll_eq (s : Store) (ws : List (Option Site × Value)) :
    s.writeAll ws = { s with frames := (s.writeAll ws).frames } := by
  induction ws generalizing s with
  | nil => rfl
  | cons w ws ih =>
    rw [writeAll_cons, ih]
    match w with
    | (none, v) => rfl
    | (some (g, i), v) => rfl

/-- No slot is denoted twice. -/
def Distinct (ts : List (Option Site)) : Prop :=
  ∀ (i j : Nat) (l : Site), ts[i]? = some (some l) → ts[j]? = some (some l) → i = j

/-- What is left when values were stored into sites from left to right, blank ones skipped. -/
structure Stored (s : Store) (ts : List (Option Site)) (vs : List Value) (s' : Store) : Prop where
  eq : s' = s.writeAll (ts.zip vs)
  /-- A slot holds what was stored into it last. -/
  last : ∀ (j : Nat) (l : Site), ts[j]? = some (some l) →
    (∀ j' > j, ts[j']? ≠ some (some l)) → s'.slot? l.1 l.2 = vs[j]?
  /-- Sites that differ from one another hold all that was stored. -/
  distinct : Distinct ts → ∀ (j : Nat) (l : Site), ts[j]? = some (some l) →
    s'.slot? l.1 l.2 = vs[j]?
  /-- All other slots of all frames are what they were. -/
  spares : Spares (fun g i => some (g, i) ∈ ts) s s'
  /-- So is everything outside frames. -/
  beside : s' = { s with frames := s'.frames }

lemma stored_writeAll (hlen : ts.length = vs.length)
    (hts : ∀ l, some l ∈ ts → l.2 < s.frameSize l.1) :
    s.Stored ts vs (s.writeAll (ts.zip vs)) := by
  have hlast : ∀ (j : Nat) (l : Site), ts[j]? = some (some l) →
      (∀ j' > j, ts[j']? ≠ some (some l)) →
      (s.writeAll (ts.zip vs)).slot? l.1 l.2 = vs[j]? := by
    intro j l hj hlater
    obtain ⟨hlt, hget⟩ := List.getElem?_eq_some_iff.mp hj
    have hv : vs[j]? = some vs[j] := List.getElem?_eq_getElem (hlen ▸ hlt)
    have hz : j < (ts.zip vs).length := by rw [List.length_zip]; omega
    have hsplit : ts.zip vs =
        (ts.zip vs).take j ++ (some l, vs[j]) :: (ts.zip vs).drop (j + 1) := by
      have hat : (ts.zip vs)[j] = (some l, vs[j]) := by rw [List.getElem_zip, hget]
      rw [← hat, ← List.drop_eq_getElem_cons hz, List.take_append_drop]
    rw [hv, hsplit]
    refine slot?_writeAll (hts l (List.mem_of_getElem? hj)) fun w hw => ?_
    obtain ⟨i, hi⟩ := List.mem_iff_getElem?.mp hw
    rw [List.getElem?_drop] at hi
    have hw1 : ts[j + 1 + i]? = some w.1 := by
      exact (List.getElem?_zip_eq_some.mp hi).1
    exact fun he => hlater (j + 1 + i) (by omega) (hw1.trans (congrArg some he))
  refine ⟨rfl, hlast, fun hd j l hj => hlast j l hj fun j' hlt hj' =>
    Nat.ne_of_lt hlt (hd j j' l hj hj'), ?_, writeAll_eq s _⟩
  refine spares_writeAll (Spares.refl _ s) fun w hw l hl => ?_
  have hmem : w.1 ∈ ts := (List.of_mem_zip (a := w.1) (b := w.2) hw).1
  exact hl ▸ hmem

/-! ### Consecutive slots -/

variable {f : FrameId} {start count : Nat}

/-- Consecutive slots of a frame. -/
def consecutive (f : FrameId) (start count : Nat) : List (Option Site) :=
  (List.range' start count).map fun j => some (f, j)

@[simp] lemma length_consecutive : (consecutive f start count).length = count := by
  rw [consecutive, List.length_map, List.length_range']

lemma getElem?_consecutive {j : Nat} (hj : j < count) :
    (consecutive f start count)[j]? = some (some (f, start + j)) := by
  rw [consecutive, List.getElem?_map, List.getElem?_range' hj, Nat.one_mul]
  rfl

lemma of_mem_consecutive {l : Site} (h : some l ∈ consecutive f start count) :
    l.1 = f ∧ start ≤ l.2 ∧ l.2 < start + count := by
  obtain ⟨j, hj, he⟩ := List.mem_map.mp h
  cases he
  exact ⟨rfl, List.mem_range'_1.mp hj⟩

lemma distinct_consecutive : Distinct (consecutive f start count) := by
  intro i j l hi hj
  have hlt : ∀ {k}, (consecutive f start count)[k]? = some (some l) → k < count := fun hk => by
    rw [← @length_consecutive f start count]
    exact (List.getElem?_eq_some_iff.mp hk).1
  rw [getElem?_consecutive (hlt hi)] at hi
  rw [getElem?_consecutive (hlt hj)] at hj
  have he : (f, start + i) = (f, start + j) :=
    (Option.some.inj (Option.some.inj hi)).trans (Option.some.inj (Option.some.inj hj)).symm
  exact Nat.add_left_cancel (Prod.mk.inj he).2

lemma putAll_eq (s : Store) (f : FrameId) (start : Nat) (vs : List Value) :
    s.putAll f start vs = s.writeAll ((consecutive f start vs.length).zip vs) := by
  induction vs generalizing s start with
  | nil => rfl
  | cons v vs ih =>
    rw [putAll, ih, List.length_cons, consecutive, consecutive, List.range'_succ, List.map_cons,
      List.zip_cons_cons, writeAll_cons]
    rfl

/-- Values that are put into consecutive slots that are there are stored in them. -/
lemma stored_putAll (h : vs = [] ∨ start + vs.length ≤ s.frameSize f) :
    s.Stored (consecutive f start vs.length) vs (s.putAll f start vs) := by
  rw [putAll_eq]
  refine stored_writeAll length_consecutive fun l hl => ?_
  obtain ⟨rfl, hle, hlt⟩ := of_mem_consecutive hl
  rcases h with rfl | h
  · exact absurd hlt (Nat.not_lt_of_le hle)
  · exact Nat.lt_of_lt_of_le hlt h

/-- What was put into consecutive slots is what they hold. -/
lemma Stored.slot?_consecutive {s' : Store} (h : s.Stored (consecutive f start count) vs s')
    {j : Nat} (hj : j < count) : s'.slot? f (start + j) = vs[j]? :=
  h.distinct distinct_consecutive j (f, start + j) (getElem?_consecutive hj)

end Store

namespace Program

variable {p : Program} {s : Store} {f : FrameId} {d : NodeId} {t : Option Site}

/-- What a destination denotes: no site when it is blank, otherwise a slot that is there. -/
inductive Targets (p : Program) (s : Store) (f : FrameId) (d : NodeId) : Option Site → Prop
  | blank {n : Node} (node : p.node d = .ok n) (slot : n.slot = none) : Targets p s f d none
  | slot {n : Node} {g : FrameId} {i : Nat} (node : p.node d = .ok n) (slot : n.slot = some i)
      (owner : s.ancestor? f n.level = some g) (lt : i < s.frameSize g) :
      Targets p s f d (some (g, i))

lemma Targets.lt {l : Site} (h : p.Targets s f d (some l)) : l.2 < s.frameSize l.1 := by
  cases h with
  | slot _ _ _ hlt => exact hlt

/-- What a destination denotes depends on nothing but frames. -/
lemma Targets.of_frames {s' : Store} (h : p.Targets s f d t) (hs : s'.frames = s.frames) :
    p.Targets s' f d t := by
  cases h with
  | blank hn hi => exact .blank hn hi
  | slot hn hi ho hlt =>
    refine .slot hn hi ?_ (by rwa [Store.frameSize_of_frames hs])
    rwa [((Store.Spares.refl (fun _ _ => True) s).of_frames hs).ancestor?]

/-- What a destination denotes stays the same whatever slots are written to. -/
lemma Targets.write (h : p.Targets s f d t) (u : Option Site) (w : Value) :
    p.Targets (s.write u w) f d t := by
  cases h with
  | blank hn hi => exact .blank hn hi
  | slot hn hi ho hlt =>
    refine .slot hn hi ?_ (by rwa [Store.frameSize_write])
    rwa [(Store.spares_write (Store.Spares.refl (fun _ _ => True) s)
      (fun _ _ => trivial) w).ancestor?]

/-- Assigning to a destination writes to its site. -/
lemma Targets.assignTo (h : p.Targets s f d t) (v : Value) :
    p.assignTo f d v s = .ok () (s.write t v) := by
  rw [Program.assignTo, Op.except_bind_apply]
  cases h with
  | blank hn hi =>
    rw [hn]
    dsimp only
    rw [hi]
    rfl
  | slot hn hi ho hlt =>
    rw [hn]
    dsimp only
    rw [hi]
    dsimp only
    rw [Op.look_bind_apply, frameAt, ho]
    exact setSlot_apply hlt v _

/-- Assigning to destinations writes to their sites from left to right. -/
lemma assignAll_apply {ds : List NodeId} {ts : List (Option Site)} {vs : List Value}
    (h : List.Forall₂ (p.Targets s f) ds ts) (hlen : ts.length = vs.length) :
    p.assignAll f ds vs s = .ok () (s.writeAll (ts.zip vs)) := by
  induction ds generalizing s ts vs with
  | nil =>
    cases h
    rfl
  | cons d ds ih =>
    obtain ⟨t, ts, hd, hds, rfl⟩ := List.forall₂_cons_left_iff.mp h
    obtain ⟨v, vs, rfl⟩ := List.exists_cons_of_length_eq_add_one hlen.symm
    have hrest := ih (hds.imp fun _ _ hd => hd.write t v) (Nat.succ.inj hlen)
    rw [List.zip_cons_cons, Store.writeAll_cons, ← hrest]
    change (p.assignTo f d v >>= fun _ => p.assignAll f ds vs) s = _
    rw [Op.bind_apply, hd.assignTo]

end Program

end Flowgraph
