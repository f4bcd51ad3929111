import Flowgraph.Proofs.Zeros.Types

/-!
# How zero values are made

A zero value is made in blocks that were not there before, and each of its blocks is found at one
position only. So are several zero values together that are made one after the other: each one is
made in blocks that are newer than those of the ones before.
-/

namespace Flowgraph

namespace Graph

variable {g : Graph} {s t u : Store} {τ : Option TypeId} {τs : List (Option TypeId)} {v : Value}
  {vs : List Value} {b : BlockId} {a : TypeId} {ty : Ty}

/-! ### Zero values in a store -/

/-- Values are zero values of some types. They have been made since a store `s`, and no block is
found at two positions in them. -/
structure ZeroValues (g : Graph) (s t : Store) (τs : List (Option TypeId)) (vs : List Value) :
    Prop where
  shapes : List.Forall₂ (g.Zeroed t) τs vs
  new : ∀ b, t.Occupied vs b → s.blocks.size ≤ b.index ∧ b.index < t.blocks.size
  unshared : t.Unshared vs

namespace ZeroValues

lemma nil (g : Graph) (s : Store) : g.ZeroValues s s [] [] where
  shapes := .nil
  new := by
    rintro b ⟨P, x, hx, -⟩
    rw [Store.among?_empty] at hx
    cases hx
  unshared := by
    intro P Q x y b hx
    rw [Store.among?_empty] at hx
    cases hx

/-- What is found in a single value is at positions that begin with zero. -/
lemma among?_singleton {P : List Nat} {x : Value} (h : s.among? [v] P = some x) :
    ∃ path, P = 0 :: path ∧ s.part? v path = some x := by
  match P with
  | 0 :: path => exact ⟨path, rfl, h⟩
  | (k + 1) :: path =>
    rw [Store.among?_cons_succ, Store.among?_empty] at h
    cases h

lemma leaf (h : g.Zeroed s τ v) (hv : v.block? = none) : g.ZeroValues s s [τ] [v] := by
  have hnone : ∀ P x b, s.among? [v] P = some x → x.block? ≠ some b := by
    intro P x b hx hb
    obtain ⟨path, rfl, hpart⟩ := among?_singleton hx
    cases path with
    | nil =>
      cases hpart
      rw [hv] at hb
      cases hb
    | cons i path =>
      rw [Store.part?_cons_of_none hv] at hpart
      cases hpart
  exact ⟨.cons h .nil, fun b ⟨P, x, hx, hb⟩ => absurd hb (hnone P x b hx),
    fun P Q x y b hx _ hb => absurd hb (hnone P x b hx)⟩

/-- They stay what they are as long as nothing happens to their blocks. -/
lemma congr (h : g.ZeroValues s t τs vs) (hsame : ∀ b, t.Occupied vs b → u.block b = t.block b)
    (hsize : t.blocks.size ≤ u.blocks.size) : g.ZeroValues s u τs vs := by
  have hparts := Store.among?_eq_of_occupied hsame
  constructor
  case shapes =>
    refine List.forall₂_iff_get.mpr ⟨h.shapes.length_eq, fun k hk hk' => ?_⟩
    refine (h.shapes.get hk hk').congr fun path x b hx hb => hsame b ⟨k :: path, x, ?_, hb⟩
    rw [Store.among?, List.getElem?_eq_getElem hk']
    exact hx
  case new =>
    rintro b ⟨P, x, hx, hb⟩
    rw [hparts] at hx
    obtain ⟨hge, hlt⟩ := h.new b ⟨P, x, hx, hb⟩
    exact ⟨hge, Nat.lt_of_lt_of_le hlt hsize⟩
  case unshared =>
    intro P Q x y b hx hy
    rw [hparts] at hx hy
    exact h.unshared P Q x y b hx hy

lemma carried (h : g.ZeroValues s t τs vs) (hc : Carried t.blocks u.blocks) :
    g.ZeroValues s u τs vs :=
  h.congr (fun b hb => Store.block_of_carried hc (h.new b hb).2) hc.size_le

lemma of_blocks {r w : Store} (h : g.ZeroValues s t τs vs) (hr : r.blocks = s.blocks)
    (hw : w.blocks = t.blocks) : g.ZeroValues r w τs vs := by
  obtain ⟨hshapes, hnew, hunshared⟩ := h.congr (fun b _ => Store.block_eq_of_blocks hw b)
    (by rw [hw])
  exact ⟨hshapes, fun b hb => hr ▸ hnew b hb, hunshared⟩

/-- One value is made, and then others. -/
lemma cons (h : g.ZeroValues s t [τ] [v]) (h' : g.ZeroValues t u τs vs)
    (hle : s.blocks.size ≤ t.blocks.size) (hc : Carried t.blocks u.blocks) :
    g.ZeroValues s u (τ :: τs) (v :: vs) := by
  have hv := h.carried hc
  have hbelow : ∀ {path x b}, u.part? v path = some x → x.block? = some b →
      b.index < t.blocks.size := by
    intro path x b hx hb
    refine (h.new b ⟨0 :: path, x, ?_, hb⟩).2
    rw [← hx, ← Store.among?_eq_of_occupied
      (fun b hb => Store.block_of_carried hc (h.new b hb).2) (0 :: path)]
    rfl
  have habove : ∀ {k path x b}, u.among? vs (k :: path) = some x → x.block? = some b →
      t.blocks.size ≤ b.index := fun hx hb => (h'.new _ ⟨_, _, hx, hb⟩).1
  constructor
  case shapes =>
    cases hv.shapes with
    | cons hhead _ => exact .cons hhead h'.shapes
  case new =>
    rintro b ⟨_ | ⟨_ | k, path⟩, x, hx, hb⟩
    · cases hx
    · exact hv.new b ⟨0 :: path, x, hx, hb⟩
    · obtain ⟨hge, hlt⟩ := h'.new b ⟨k :: path, x, hx, hb⟩
      exact ⟨Nat.le_trans hle hge, hlt⟩
  case unshared =>
    rintro (_ | ⟨_ | k, path⟩) (_ | ⟨_ | l, path'⟩) x y b hx hy hb hb'
    case nil.nil | nil.cons.zero | nil.cons.succ => cases hx
    case cons.zero.nil | cons.succ.nil => cases hy
    case cons.zero.cons.zero => exact hv.unshared (0 :: path) (0 :: path') x y b hx hy hb hb'
    case cons.zero.cons.succ => exact absurd (hbelow hx hb) (Nat.not_lt_of_le (habove hy hb'))
    case cons.succ.cons.zero => exact absurd (hbelow hy hb') (Nat.not_lt_of_le (habove hx hb))
    case cons.succ.cons.succ =>
      have hsame := h'.unshared (k :: path) (l :: path') x y b hx hy hb hb'
      rw [List.cons.injEq] at hsame
      rw [hsame.1, hsame.2]

/-- Values are put into a block of their own. -/
lemma composite (h : g.ZeroValues s t τs vs) (hle : s.blocks.size ≤ t.blocks.size)
    (hb : v.block? = some (t.newBlock vs.toArray).1)
    (hz : g.Zeroed (t.newBlock vs.toArray).2 τ v) :
    g.ZeroValues s (t.newBlock vs.toArray).2 [τ] [v] := by
  have hin := h.carried (u := (t.newBlock vs.toArray).2) ((Carried.refl _).push _)
  have hinner : ∀ {i path}, (t.newBlock vs.toArray).2.part? v (i :: path) =
      (t.newBlock vs.toArray).2.among? vs (i :: path) := by
    intro i path
    rw [Store.part?_cons hb, Store.block_newBlock_self]
  have hbelow : ∀ {i path x c}, (t.newBlock vs.toArray).2.part? v (i :: path) = some x →
      x.block? = some c → c.index < t.blocks.size := by
    intro i path x c hx hc
    rw [hinner, Store.among?_eq_of_occupied fun b hb =>
      Store.block_of_carried ((Carried.refl _).push _) (h.new b hb).2] at hx
    exact (h.new c ⟨_, x, hx, hc⟩).2
  have hself : ∀ {x c}, (t.newBlock vs.toArray).2.part? v [] = some x → x.block? = some c →
      c.index = t.blocks.size := by
    intro x c hx hc
    cases hx
    rw [hb] at hc
    cases hc
    rfl
  constructor
  case shapes => exact .cons hz .nil
  case new =>
    rintro c ⟨P, x, hx, hc⟩
    obtain ⟨path, rfl, hpart⟩ := among?_singleton hx
    cases path with
    | nil =>
      rw [hself hpart hc]
      refine ⟨hle, ?_⟩
      rw [Store.newBlock, Array.size_push]
      exact Nat.lt_succ_self _
    | cons i path =>
      rw [hinner] at hpart
      exact hin.new c ⟨_, x, hpart, hc⟩
  case unshared =>
    intro P Q x y c hx hy hc hc'
    obtain ⟨path, rfl, hpart⟩ := among?_singleton hx
    obtain ⟨path', rfl, hpart'⟩ := among?_singleton hy
    rcases path with _ | ⟨i, path⟩ <;> rcases path' with _ | ⟨j, path'⟩
    · rfl
    · exact absurd (hself hpart hc) (Nat.ne_of_lt (hbelow hpart' hc'))
    · exact absurd (hself hpart' hc') (Nat.ne_of_lt (hbelow hpart hc))
    · rw [hinner] at hpart hpart'
      rw [hin.unshared _ _ x y c hpart hpart' hc hc']

/-- The elements of a composite zero value are zero values too, and none of them has its block. -/
lemma inner (h : g.ZeroValues s t [τ] [v]) (hb : v.block? = some b)
    (hshapes : List.Forall₂ (g.Zeroed t) τs (t.block b).toList) :
    g.ZeroValues s t τs (t.block b).toList ∧ ¬t.Occupied (t.block b).toList b := by
  have houter : ∀ {P x}, t.among? (t.block b).toList P = some x →
      t.among? [v] (0 :: P) = some x := by
    rintro (_ | ⟨i, path⟩) x hx
    · cases hx
    · rwa [Store.among?_cons_zero, Store.part?_cons hb]
  refine ⟨⟨hshapes, fun c ⟨P, x, hx, hc⟩ => h.new c ⟨_, x, houter hx, hc⟩, ?_⟩, ?_⟩
  · intro P Q x y c hx hy hc hc'
    exact List.tail_eq_of_cons_eq (h.unshared _ _ x y c (houter hx) (houter hy) hc hc')
  · rintro ⟨P, x, hx, hc⟩
    have hroot := h.unshared [0] (0 :: P) v x b rfl (houter hx) hb hc
    rw [← List.tail_eq_of_cons_eq hroot] at hx
    cases hx

/-- Whatever is overwritten, and however often: what is found at a position is the same, unless an
element on the way to it is overwritten. -/
lemma hidden (h : g.ZeroValues s t τs vs) (P : List Nat)
    (hu : t.Rewritten (fun b i => t.Occupied vs b → ∃ Q x, t.among? vs Q = some x ∧
      x.block? = some b ∧ ¬Q ++ [i] <+: P) u) : u.among? vs P = t.among? vs P := by
  refine Store.among?_congr fun Q j x b hway hx hb => hu.getElem? fun haside => ?_
  obtain ⟨Q', y, hy, hb', haside⟩ := haside ⟨Q, x, hx, hb⟩
  rw [h.unshared Q' Q y x b hy hx hb' hb] at haside
  exact haside hway

end ZeroValues

/-! ### Operations that make zero values -/

/-- An operation makes zero values of some types, and changes nothing. It stops only if an array is
too large. -/
def Makes (g : Graph) (τs : List (Option TypeId)) {α : Type} (values : α → List Value) (x : Op α) :
    Prop :=
  ∀ s, match x s with
    | .ok r t => ¬g.TooLarge τs ∧ s.Extended t ∧ g.ZeroValues s t τs (values r)
    | .error e t => e = .tooLarge ∧ g.TooLarge τs ∧ s.Extended t

namespace Makes

section Outcome

variable {α : Type} {values : α → List Value} {x : Op α}

lemma ok (h : g.Makes τs values x) (hfit : ¬g.TooLarge τs) (s : Store) :
    ∃ r t, x s = .ok r t ∧ s.Extended t ∧ g.ZeroValues s t τs (values r) := by
  have hs := h s
  cases hx : x s with
  | ok r t =>
    rw [hx] at hs
    exact ⟨r, t, rfl, hs.2⟩
  | error e t =>
    rw [hx] at hs
    exact absurd hs.2.1 hfit

lemma error (h : g.Makes τs values x) (hlarge : g.TooLarge τs) (s : Store) :
    ∃ t, x s = .error .tooLarge t := by
  have hs := h s
  cases hx : x s with
  | ok r t =>
    rw [hx] at hs
    exact absurd hlarge hs.1
  | error e t =>
    rw [hx] at hs
    exact ⟨t, by rw [hs.1]⟩

end Outcome

/-- Zero values are made one after the other. -/
lemma mapM {α : Type} {x : α → Op Value} {κ : α → Option TypeId} {l : List α}
    (h : ∀ c ∈ l, g.Makes [κ c] List.singleton (x c)) :
    g.Makes (l.map κ) id (l.mapM x) := by
  induction l with
  | nil =>
    intro s
    rw [List.mapM_nil]
    exact ⟨not_tooLarge_nil, .refl s, .nil g s⟩
  | cons c l ih =>
    intro s
    have hfirst := h c List.mem_cons_self s
    rw [List.map_cons, List.mapM_cons, Op.bind_apply]
    cases hc : x c s with
    | error e t =>
      rw [hc] at hfirst
      exact ⟨hfirst.1, tooLarge_cons.mpr (.inl hfirst.2.1), hfirst.2.2⟩
    | ok v t =>
      rw [hc] at hfirst
      obtain ⟨hfit, hext, hv⟩ := hfirst
      have hrest := ih (fun c' hc' => h c' (List.mem_cons_of_mem c hc')) t
      dsimp only
      rw [Op.bind_apply]
      cases hl : l.mapM x t with
      | error e u =>
        rw [hl] at hrest
        obtain ⟨he, hlarge, hext'⟩ := hrest
        exact ⟨he, tooLarge_cons.mpr (.inr hlarge), hext.trans hext'⟩
      | ok vs u =>
        rw [hl] at hrest
        obtain ⟨hfit', hext', hvs⟩ := hrest
        exact ⟨fun hlarge => (tooLarge_cons.mp hlarge).elim hfit hfit', hext.trans hext',
          hv.cons hvs hext.carried.size_le hext'.carried⟩

lemma times_eq_mapM (n : Nat) {α β : Type} (x : α → Op β) (c : α) :
    Op.times n (x c) = (List.replicate n c).mapM x := by
  induction n with
  | zero => rfl
  | succ n ih => rw [Op.times_succ, List.replicate_succ, List.mapM_cons, ih]

/-- Zero values are made of one and the same type. -/
lemma times {x : Op Value} (h : g.Makes [τ] List.singleton x) (n : Nat) :
    g.Makes (List.replicate n τ) id (Op.times n x) := by
  rw [times_eq_mapM n (fun _ : Unit => x) ()]
  have hmany := mapM (g := g) (x := fun _ : Unit => x) (κ := fun _ => τ)
    (l := List.replicate n ()) fun _ _ => h
  rwa [List.map_replicate] at hmany

/-- The zero values of the elements or fields of a type are put into a block. -/
lemma block {x : Op (List Value)} {w : BlockId → Value} (hx : g.Makes τs id x)
    (hτs : τs = ty.made.map some) (hty : g.type? a = some ty)
    (hfit : ∀ elem length, ty = .array elem length → length ≤ maxValues)
    (hvalue : ∀ b, (w b).block? = some b)
    (hz : ∀ s b, List.Forall₂ (g.Zeroed s) τs (s.block b).toList →
      g.Zeroed s (some a) (w b)) :
    g.Makes [some a] List.singleton
      (x >>= fun vs => do return w (← Op.create fun s => s.newBlock vs.toArray)) := by
  have hlarge : g.TooLarge [some a] ↔ g.TooLarge τs := by
    rw [tooLarge_singleton, oversized_iff hty, hτs]
    refine or_iff_right ?_
    rintro ⟨elem, length, he, hgt⟩
    exact absurd hgt (Nat.not_lt_of_le (hfit elem length he))
  intro s
  have hmade := hx s
  rw [Op.bind_apply]
  cases hr : x s with
  | error e t =>
    rw [hr] at hmade
    exact ⟨hmade.1, hlarge.mpr hmade.2.1, hmade.2.2⟩
  | ok vs t =>
    rw [hr] at hmade
    obtain ⟨hnot, hext, hvs⟩ := hmade
    have hin := hvs.carried (u := (t.newBlock vs.toArray).2) ((Carried.refl _).push _)
    have hshapes : List.Forall₂ (g.Zeroed (t.newBlock vs.toArray).2) τs
        ((t.newBlock vs.toArray).2.block (t.newBlock vs.toArray).1).toList := by
      rw [Store.block_newBlock_self]
      exact hin.shapes
    exact ⟨fun h => hnot (hlarge.mp h), hext.newBlock _,
      hvs.composite hext.carried.size_le (hvalue _) (hz _ _ hshapes)⟩

/-- The zero value of a type that is neither an array nor a struct is there at once. -/
lemma leaf (hty : g.type? a = some ty) (hmade : ty.made = [])
    (harray : ∀ elem length, ty ≠ .array elem length) (hz : ∀ s, g.Zeroed s (some a) v)
    (hv : v.block? = none) : g.Makes [some a] List.singleton (pure v : Op Value) := by
  intro s
  refine ⟨?_, .refl s, .leaf (hz s) hv⟩
  rw [tooLarge_singleton, oversized_iff hty, hmade]
  rintro (⟨elem, length, he, -⟩ | hlarge)
  · exact harray elem length he
  · exact not_tooLarge_nil hlarge

end Makes

/-- Types with ranks below the depth have zero values. -/
theorem makes_zeroAt {rank : TypeId → Nat}
    (hrank : ∀ a b, g.Founded a → g.Contains a b → rank b < rank a) {depth : Nat}
    (ha : g.Founded a) (hdepth : rank a < depth) :
    g.Makes [some a] List.singleton (g.zeroAt depth a) := by
  induction depth generalizing a with
  | zero => exact absurd hdepth (Nat.not_lt_zero _)
  | succ depth ih =>
    obtain ⟨ty, hty⟩ : ∃ ty, g.type? a = some ty := by
      cases ha
      exact ⟨_, ‹_›⟩
    have hparts : ∀ b ∈ ty.made, g.Makes [some b] List.singleton (g.zeroAt depth b) := by
      intro b hb
      have hpart := Ty.mem_parts_of_mem_made hb
      exact ih (ha.part hty hpart)
        (Nat.lt_of_lt_of_le (hrank a b ha ⟨ty, hty, hpart⟩) (Nat.le_of_lt_succ hdepth))
    have horStop : Graph.orStop (g.type a) = .ok ty := by rw [type, hty]; rfl
    intro s
    rw [zeroAt, Op.except_bind_apply, horStop]
    dsimp only
    cases ty with
    | bool => exact Makes.leaf hty rfl (fun _ _ he => by cases he) (fun _ => .bool hty) rfl s
    | int => exact Makes.leaf hty rfl (fun _ _ he => by cases he) (fun _ => .int hty) rfl s
    | float => exact Makes.leaf hty rfl (fun _ _ he => by cases he) (fun _ => .float hty) rfl s
    | string => exact Makes.leaf hty rfl (fun _ _ he => by cases he) (fun _ => .string hty) rfl s
    | array elem length =>
      dsimp only
      rw [Op.except_bind_apply, checkSize]
      by_cases hsize : length ≤ maxValues
      · rw [if_pos hsize]
        have hmany : g.Makes (List.replicate length (some elem)) id
            (Op.times length (g.zeroAt depth elem)) := by
          cases length with
          | zero => exact fun s => ⟨not_tooLarge_nil, .refl s, .nil g s⟩
          | succ n => exact (hparts elem List.mem_cons_self).times _
        refine hmany.block (w := .slice) List.map_replicate.symm hty ?_ (fun _ => rfl)
          (fun s b hshapes => (zeroed_slice_iff hty).mpr hshapes) s
        intro elem' length' he
        cases he
        exact hsize
      · rw [if_neg hsize]
        exact ⟨rfl, tooLarge_singleton.mpr (.array hty (Nat.not_le.mp hsize)), .refl s⟩
    | struct fields =>
      have hmany := Makes.mapM (κ := some) hparts
      exact hmany.block (w := .struct) rfl hty (fun _ _ he => by cases he) (fun _ => rfl)
        (fun s b hshapes => (zeroed_struct_iff hty).mpr hshapes) s
    | _ => exact Makes.leaf hty rfl (fun _ _ he => by cases he) (fun _ => .handle hty rfl) rfl s

/-- A type that is not nested in itself has a zero value, unless an array is too large. -/
theorem makes_zero_some (ha : g.Founded a) : g.Makes [some a] List.singleton (g.zero (some a)) := by
  obtain ⟨rank, hle, hrank⟩ := g.exists_rank_of_founded
  exact makes_zeroAt hrank ha (Nat.lt_succ_of_le (hle a))

lemma makes_zero (hτ : ∀ a, τ = some a → g.Founded a) :
    g.Makes [τ] List.singleton (g.zero τ) := by
  cases τ with
  | none => exact fun s => ⟨not_tooLarge_none, .refl s, .leaf .untyped rfl⟩
  | some a => exact makes_zero_some (hτ a rfl)

/-! ### What zero values share -/

/-- Zero values have been made since a store `s`, and share nothing: with one another, within
themselves, or with what has been there before. -/
structure ZerosApart (g : Graph) (s t : Store) (τs : List (Option TypeId)) (vs : List Value) :
    Prop extends ZeroValues g s t τs vs where
  /-- Whatever is overwritten, and however often: what is found at a position in the values is the
  same, unless an element on the way to it is overwritten. So a write to a block of the values is
  seen at and below the position of the element, and other writes are not seen at all. -/
  hidden : ∀ P u, t.Rewritten (fun b i => t.Occupied vs b → ∃ Q x, t.among? vs Q = some x ∧
    x.block? = some b ∧ ¬Q ++ [i] <+: P) u → u.among? vs P = t.among? vs P
  /-- Writes to blocks of the values are not seen in anything that has been there before. -/
  older : ∀ u, t.Rewritten (fun b _ => t.Occupied vs b) u →
    Carried s.blocks u.blocks ∧ u.dicts = s.dicts ∧ u.channels = s.channels ∧
      ∀ v, Within s.size v → ∀ path, u.part? v path = s.part? v path

lemma ZeroValues.apart (h : g.ZeroValues s t τs vs) (hs : s.Closed)
    (hc : Carried s.blocks t.blocks) (hd : t.dicts = s.dicts) (hch : t.channels = s.channels) :
    g.ZerosApart s t τs vs where
  toZeroValues := h
  hidden P _ hu := h.hidden P hu
  older u hu := by
    obtain ⟨hcarried, hbeside⟩ := hu.carried (fun b _ hb => (h.new b hb).1) hc
    refine ⟨hcarried, ?_, ?_, fun v hv path => hs.part?_eq hv hcarried path⟩
    · rw [hbeside, ← hd]
    · rw [hbeside, ← hch]

end Graph

end Flowgraph
