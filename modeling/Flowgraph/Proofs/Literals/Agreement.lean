import Mathlib.Data.List.Perm.Basic
import Mathlib.Tactic.Common
import Flowgraph.Proofs.Literals.Composed
import Flowgraph.Proofs.Walks

/-!
# Literals of lists and literals with keys

A literal that lists its elements and one that names them make the same array or struct. What is not
given is a zero value, and zero values of a type are structurally equal. Keys may come in any order;
where one is repeated, the last element counts.
-/

namespace Flowgraph

open Flowgraph.Graph

section Lists

variable {α β : Type} {R : α → β → Prop} {as before after : List α} {bs : List β} {a : α}

lemma exists_forall₂ (h : ∀ a ∈ as, ∃ b, R a b) : ∃ bs, List.Forall₂ R as bs := by
  induction as with
  | nil => exact ⟨[], .nil⟩
  | cons a as ih =>
    obtain ⟨b, hb⟩ := h a List.mem_cons_self
    obtain ⟨bs, hbs⟩ := ih fun a' ha' => h a' (List.mem_cons_of_mem a ha')
    exact ⟨b :: bs, .cons hb hbs⟩

lemma exists_append_of_forall₂ (h : List.Forall₂ R (before ++ after) bs) :
    ∃ bs₁ bs₂, bs = bs₁ ++ bs₂ ∧ List.Forall₂ R before bs₁ ∧ List.Forall₂ R after bs₂ := by
  induction before generalizing bs with
  | nil => exact ⟨[], bs, rfl, .nil, h⟩
  | cons a before ih =>
    obtain ⟨b, bs, hb, hrest, rfl⟩ := List.forall₂_cons_left_iff.mp h
    obtain ⟨bs₁, bs₂, rfl, h₁, h₂⟩ := ih hrest
    exact ⟨b :: bs₁, bs₂, rfl, .cons hb h₁, h₂⟩

lemma exists_insert_of_forall₂ (h : List.Forall₂ R (before ++ a :: after) bs) :
    ∃ bs₁ b bs₂, bs = bs₁ ++ b :: bs₂ ∧ List.Forall₂ R before bs₁ ∧ R a b ∧
      List.Forall₂ R after bs₂ := by
  obtain ⟨bs₁, _, rfl, h₁, h⟩ := exists_append_of_forall₂ h
  obtain ⟨b, bs₂, hb, h₂, rfl⟩ := List.forall₂_cons_left_iff.mp h
  exact ⟨bs₁, b, bs₂, rfl, h₁, hb, h₂⟩

lemma exists_mem_of_forall₂ (h : List.Forall₂ R as bs) (ha : a ∈ as) : ∃ b ∈ bs, R a b := by
  obtain ⟨before, after, rfl⟩ := List.append_of_mem ha
  obtain ⟨bs₁, b, bs₂, rfl, -, hb, -⟩ := exists_insert_of_forall₂ h
  exact ⟨b, List.mem_append_right bs₁ List.mem_cons_self, hb⟩

end Lists

/-! ### Structural equality -/

namespace Store

variable {s t : Store} {v w : Value}

/-- What a value shows without its elements: itself, or that it is an array or a struct of some
size. -/
def surface (s : Store) : Value → Value × Option Nat
  | .slice b => (.slice ⟨0⟩, some (s.block b).size)
  | .struct b => (.struct ⟨0⟩, some (s.block b).size)
  | v => (v, none)

/-- Two values, each in its own store, show the same at all positions. -/
def Similar (s : Store) (v : Value) (t : Store) (w : Value) : Prop :=
  ∀ path, (s.part? v path).map s.surface = (t.part? w path).map t.surface

/-- Values without blocks are alike only if they are the same. -/
lemma Similar.refl_of_none (s t : Store) (hv : v.block? = none) : s.Similar v t v := by
  intro path
  cases path with
  | nil => cases v <;> first | rfl | cases hv
  | cons i path =>
    rw [part?_cons_of_none hv, part?_cons_of_none hv]
    rfl

/-- Values with blocks are alike if they show the same and have elements that are alike. -/
lemma Similar.of_elements {b c : BlockId} (hb : v.block? = some b) (hc : w.block? = some c)
    (hsurface : s.surface v = t.surface w) (hsize : (s.block b).size = (t.block c).size)
    (h : ∀ (i : Nat) (x y : Value), (s.block b)[i]? = some x → (t.block c)[i]? = some y →
      s.Similar x t y) :
    s.Similar v t w := by
  intro path
  cases path with
  | nil => exact congrArg some hsurface
  | cons i path =>
    rw [part?, part?, hb, hc, Option.bind_some, Option.bind_some]
    by_cases hi : i < (s.block b).size
    · rw [Array.getElem?_eq_getElem hi, Array.getElem?_eq_getElem (hsize ▸ hi)]
      exact h i _ _ (Array.getElem?_eq_getElem hi) (Array.getElem?_eq_getElem (hsize ▸ hi)) path
    · rw [Array.getElem?_eq_none (Nat.le_of_not_lt hi),
        Array.getElem?_eq_none (hsize ▸ Nat.le_of_not_lt hi)]
      rfl

end Store

/-- Zero values of a type are structurally equal. -/
theorem Graph.Zeroed.similar {g : Graph} {s t : Store} {τ : Option TypeId} {v w : Value}
    (hv : g.Zeroed s τ v) (hw : g.Zeroed t τ w) : s.Similar v t w := by
  induction hv generalizing w with
  | untyped =>
    cases hw
    exact .refl_of_none s t rfl
  | array hty hsize _ ih =>
    cases hw with
    | array hty' hsize' helements' =>
      rw [hty] at hty'
      cases hty'
      refine .of_elements rfl rfl ?_ (hsize.trans hsize'.symm) fun i x y hx hy =>
        ih i x hx (helements' i y hy)
      simp only [Store.surface, hsize, hsize']
    | _ => simp_all [Ty.isHandle]
  | @struct a fields b hty hsize _ ih =>
    cases hw with
    | @struct _ fields' c hty' hsize' helements' =>
      rw [hty] at hty'
      cases hty'
      refine .of_elements rfl rfl ?_ (hsize.trans hsize'.symm) fun i x y hx hy => ?_
      · simp only [Store.surface, hsize, hsize']
      · have hi : i < (fields.map Prod.snd).length := by
          rw [List.length_map, ← hsize]
          exact (Array.getElem?_eq_some_iff.mp hx).1
        have hτ : (fields.map Prod.snd)[i]? = some (fields.map Prod.snd)[i] :=
          List.getElem?_eq_getElem hi
        exact ih i _ x hτ hx (helements' i _ y hτ hy)
    | _ => simp_all [Ty.isHandle]
  | handle hty hhandle =>
    cases hw with
    | handle => exact .refl_of_none s t rfl
    | bool hty' | int hty' | float hty' | string hty' | array hty' | struct hty' =>
      rw [hty] at hty'
      cases hty'
      cases hhandle
  | _ => cases hw <;> first | exact .refl_of_none s t rfl | simp_all [Ty.isHandle]

/-! ### Literals with keys -/

/-- The number of an element is the number that is written, unless there is no such element. -/
lemma checkIndex_saturate_iff {k i size : Nat} (hsize : size ≤ maxValues) :
    checkIndex (saturate k) size = .ok i ↔ i = k ∧ k < size := by
  have hmax : maxValues < 2 ^ 63 - 1 := by decide
  have hint : (saturate k).toInt = (min k (2 ^ 63 - 1) : Nat) := by
    have hlt : min k (2 ^ 63 - 1) < 2 ^ 63 := Nat.lt_of_le_of_lt (Nat.min_le_right ..) (by decide)
    exact Int64.toInt_ofNat_of_lt hlt
  rw [checkIndex, hint]
  by_cases hk : k < size
  · rw [Nat.min_eq_left (by omega), if_pos (by omega), Int.toNat_natCast, Except.ok.injEq]
    omega
  · rw [if_neg (by omega)]
    constructor
    · intro h
      cases h
    · omega

namespace Program

variable {p : Program} {s : Store} {f : FrameId} {id id' : NodeId} {n n' : Node} {kind : Kind}
  {a : TypeId} {ty : Ty} {wrap : BlockId → Value} {slot slot' : Nat} {written : List Value}
  {ws : List (Nat × Value)}

/-- A type of arrays or structs that is not nested in itself. -/
structure MadeOf (p : Program) (a : TypeId) (ty : Ty) (kind : Kind) (wrap : BlockId → Value) :
    Prop where
  composite : ty.Composite kind wrap
  type : p.graph.type? a = some ty
  founded : p.graph.Founded a

/-- A literal with keys makes an array or a struct in which the last element for each place counts,
unless its zero value is too large. -/
theorem LiteralAt.keyed (h : p.LiteralAt s f id n .keyedLit a slot) (ha : p.MadeOf a ty kind wrap)
    (hkeyed : List.Forall₂ (p.Keyed s f ty.made.length) (n.children.drop 1) ws)
    (hfit : ¬p.graph.Oversized a) :
    p.Composes f id s slot wrap (ty.made.map some) (lastFor ws) := by
  obtain ⟨b, t, hb⟩ := exists_begins ha.composite ha.type ha.founded hfit s
  exact ⟨b, _, h.perform_keyed ha.composite hb hkeyed,
    hb.values.writtenOver ha.composite ha.type hb.extended ws⟩

/-- A literal with keys whose zero value is too large is not made. -/
lemma LiteralAt.keyed_of_oversized (h : p.LiteralAt s f id n .keyedLit a slot)
    (ha : p.graph.Founded a) (hlarge : p.graph.Oversized a) :
    ∃ t, p.perform f id s = .error .tooLarge t := by
  obtain ⟨t, ht⟩ := (makes_zero_some ha).error (tooLarge_singleton.mpr hlarge) s
  have hop : p.operation f id .keyedLit = completely (p.keyedLit f id) := rfl
  refine ⟨t, h.perform_error hop ?_⟩
  rw [keyedLit_unfold h.node h.ofType, Op.bind_apply, ht]

/-- An element with a key is there: it has a number below the size, and a value. -/
lemma keyed_iff {size : Nat} {c : NodeId} {w : Nat × Value} (hsize : size ≤ maxValues) :
    p.Keyed s f size c w ↔ ∃ m, p.node c = .ok m ∧ m.field? = some w.1 ∧ w.1 < size ∧
      (if m.kind = .keyValue then p.operand f c 1 else p.value f c) s = .ok w.2 := by
  constructor
  · rintro ⟨m, field, hm, hfield, hindex, hv⟩
    obtain ⟨hw, hlt⟩ := (checkIndex_saturate_iff hsize).mp hindex
    exact ⟨m, hm, hw ▸ hfield, hw ▸ hlt, hv⟩
  · rintro ⟨m, hm, hfield, hlt, hv⟩
    exact ⟨m, w.1, hm, hfield, (checkIndex_saturate_iff hsize).mpr ⟨rfl, hlt⟩, hv⟩

/-- If a literal with keys is made, its zero value is not too large and all its elements are
there. -/
lemma LiteralAt.exists_keyed (h : p.LiteralAt s f id n .keyedLit a slot)
    (ha : p.MadeOf a ty kind wrap) (hok : p.perform f id s = .ok .done u) :
    ¬p.graph.Oversized a ∧
      ∃ ws, List.Forall₂ (p.Keyed s f ty.made.length) (n.children.drop 1) ws := by
  have hfit : ¬p.graph.Oversized a := by
    intro hlarge
    obtain ⟨t, ht⟩ := h.keyed_of_oversized ha.founded hlarge
    rw [hok] at ht
    cases ht
  obtain ⟨b, t, hb⟩ := exists_begins ha.composite ha.type ha.founded hfit s
  rw [perform_of_node h.node, h.ofKind] at hok
  change (p.keyedLit f id >>= fun _ => pure Pending.done) s = _ at hok
  rw [Op.bind_apply, keyedLit_unfold h.node h.ofType, Op.bind_apply, hb.zero] at hok
  dsimp only at hok
  rw [Op.except_bind_apply, ha.composite.asBlock] at hok
  dsimp only at hok
  rw [Op.bind_apply] at hok
  cases hforM : ((n.children.drop 1).forM (p.setKeyed f b) : Op Unit) t with
  | error e r =>
    rw [hforM] at hok
    cases hok
  | ok _ r => exact ⟨hfit, keyed_of_forM (by rw [hb.extended.beside]) hb.size hforM⟩

/-- A literal with keys is made exactly if all its elements are there. -/
theorem LiteralAt.keyed_ok_iff (h : p.LiteralAt s f id n .keyedLit a slot)
    (ha : p.MadeOf a ty kind wrap) (hfit : ¬p.graph.Oversized a)
    (hheld : ty.made.length ≤ maxValues) :
    (∃ t, p.perform f id s = .ok .done t) ↔ ∀ c ∈ n.children.drop 1, ∃ m i v, p.node c = .ok m ∧
      m.field? = some i ∧ i < ty.made.length ∧
      (if m.kind = .keyValue then p.operand f c 1 else p.value f c) s = .ok v := by
  constructor
  · rintro ⟨u, hok⟩ c hc
    obtain ⟨-, ws, hws⟩ := h.exists_keyed ha hok
    obtain ⟨w, -, hw⟩ := exists_mem_of_forall₂ hws hc
    obtain ⟨m, hm, hfield, hlt, hv⟩ := (keyed_iff hheld).mp hw
    exact ⟨m, w.1, w.2, hm, hfield, hlt, hv⟩
  · intro hall
    have hkeyed : ∀ c ∈ n.children.drop 1, ∃ w, p.Keyed s f ty.made.length c w := by
      intro c hc
      obtain ⟨m, i, v, hm, hfield, hlt, hv⟩ := hall c hc
      exact ⟨(i, v), (keyed_iff hheld).mpr ⟨m, hm, hfield, hlt, hv⟩⟩
    obtain ⟨ws, hws⟩ := exists_forall₂ hkeyed
    obtain ⟨b, t, hb⟩ := exists_begins ha.composite ha.type ha.founded hfit s
    exact ⟨_, h.perform_keyed ha.composite hb hws⟩

/-! ### The same elements, listed and with keys -/

/-- Elements with keys name those of a list, each under its own number. -/
structure Pairs (p : Program) (es cs : List NodeId) : Prop where
  length : cs.length = es.length
  pair : ∀ (i : Nat) (e c : NodeId), es[i]? = some e → cs[i]? = some c → ∃ m, p.node c = .ok m ∧
    m.kind = .keyValue ∧ m.field? = some i ∧ m.child? 1 = some e

/-- They write the values of the list to its places. -/
lemma Pairs.keyed {es cs : List NodeId} {size : Nat} (h : p.Pairs es cs)
    (hes : List.Forall₂ (fun e v => p.value f e s = .ok v) es written)
    (hle : written.length ≤ size) (hsize : size ≤ maxValues) :
    List.Forall₂ (p.Keyed s f size) cs (placed written) := by
  have hlength := hes.length_eq
  refine List.forall₂_iff_get.mpr ⟨?_, fun i hi hi' => ?_⟩
  · rw [h.length, hlength, length_placed]
  · rw [length_placed] at hi'
    have hw : (placed written).get ⟨i, by rwa [length_placed]⟩ = (i, written[i]) := by
      simp [placed]
    have he : es[i]? = some es[i] := List.getElem?_eq_getElem (hlength ▸ hi')
    obtain ⟨m, hm, hkind, hfield, hchild⟩ := h.pair i _ _ he (List.getElem?_eq_getElem hi)
    rw [hw, List.get_eq_getElem]
    refine (keyed_iff hsize).mpr ⟨m, hm, hfield, Nat.lt_of_lt_of_le hi' hle, ?_⟩
    rw [if_pos hkind, operand_of_node hm hchild]
    exact hes.get (hlength ▸ hi') hi'

/-- A list of elements and the same elements with keys, in any order, make arrays or structs that
hold the same values at first and structurally equal zero values behind them. -/
theorem LiteralAt.alike {s' : Store} {f' : FrameId} {cs : List NodeId}
    (h : p.LiteralAt s f id n kind a slot) (h' : p.LiteralAt s' f' id' n' .keyedLit a slot')
    (ha : p.MadeOf a ty kind wrap) (hfit : ¬p.graph.Oversized a)
    (hheld : ty.made.length ≤ maxValues) (hwritten : p.elements f n s = .ok written)
    (hsame : p.elements f' n s' = .ok written) (hle : written.length ≤ ty.made.length)
    (hpairs : p.Pairs (n.children.drop 1) cs) (hperm : (n'.children.drop 1).Perm cs) :
    ∃ b t c u, p.perform f id s = .ok .done (t.setSlot f slot (wrap b)) ∧
      p.perform f' id' s' = .ok .done (u.setSlot f' slot' (wrap c)) ∧
      p.graph.Composed s t b (ty.made.map some) (fun i => written[i]?) ∧
      p.graph.Composed s' u c (ty.made.map some) (fun i => written[i]?) ∧
      ∀ (i : Nat) (v w : Value), written.length ≤ i → (t.block b)[i]? = some v →
        (u.block c)[i]? = some w → t.Similar v u w := by
  have hrest : ¬p.graph.TooLarge ((ty.made.map some).drop written.length) := fun ⟨_, hb, hlarge⟩ =>
    hfit ((oversized_iff ha.type).mpr (.inr ⟨_, List.mem_of_mem_drop hb, hlarge⟩))
  obtain ⟨b, t, ht, hb⟩ := (h.listing ha.composite ha.type ha.founded hwritten hle).1 hrest
  have hplaced := hpairs.keyed (Look.forall₂_of_mapM hsame) hle hheld
  obtain ⟨ws, hkeyed, hws⟩ := List.perm_comp_forall₂ hperm hplaced
  obtain ⟨c, u, hu, hc⟩ := h'.keyed ha hkeyed hfit
  rw [← lastFor_perm (nodup_placed written) hws.symm, lastFor_placed] at hc
  refine ⟨b, t, c, u, ht, hu, hb, hc, fun i v w hi hv hw => ?_⟩
  have hnone : written[i]? = none := List.getElem?_eq_none hi
  have hlt : i < (ty.made.map some).length := hb.size ▸ (Array.getElem?_eq_some_iff.mp hv).1
  obtain ⟨v', hv', hzero, -⟩ := hb.zero i _ (List.getElem?_eq_getElem hlt) hnone
  obtain ⟨w', hw', hzero', -⟩ := hc.zero i _ (List.getElem?_eq_getElem hlt) hnone
  rw [hv] at hv'
  rw [hw] at hw'
  cases hv'
  cases hw'
  exact hzero.similar hzero'

/-! ### The order of the elements -/

/-- Two elements with keys go to different places. -/
def Elsewhere (p : Program) (x y : NodeId) : Prop :=
  ∀ m m', p.node x = .ok m → p.node y = .ok m' → m.field? ≠ m'.field?

lemma Elsewhere.symm {x y : NodeId} (h : p.Elsewhere x y) : p.Elsewhere y x :=
  fun m m' hm hm' he => h m' m hm' hm he.symm

lemma Elsewhere.ne {x y : NodeId} {w w' : Nat × Value} {size : Nat} (h : p.Elsewhere x y)
    (hsize : size ≤ maxValues) (hx : p.Keyed s f size x w) (hy : p.Keyed s f size y w') :
    w.1 ≠ w'.1 := by
  obtain ⟨m, hm, hfield, -⟩ := (keyed_iff hsize).mp hx
  obtain ⟨m', hm', hfield', -⟩ := (keyed_iff hsize).mp hy
  intro he
  exact h m m' hm hm' (by rw [hfield, hfield', he])

/-- Two elements change places. Neither goes where the other goes, nor where one between them
goes. -/
structure Swapped (p : Program) (cs cs' : List NodeId) (before between after : List NodeId)
    (x y : NodeId) : Prop where
  left : cs = before ++ x :: between ++ y :: after
  right : cs' = before ++ y :: between ++ x :: after
  elsewhere : p.Elsewhere x y
  between : ∀ c ∈ between, p.Elsewhere c x ∧ p.Elsewhere c y

lemma Swapped.symm {cs cs' before between after : List NodeId} {x y : NodeId}
    (h : p.Swapped cs cs' before between after x y) :
    p.Swapped cs' cs before between after y x where
  left := h.right
  right := h.left
  elsewhere := h.elsewhere.symm
  between c hc := (h.between c hc).symm

/-- What is made stays the same then. -/
lemma LiteralAt.of_swapped {before between after : List NodeId} {x y : NodeId}
    (h : p.LiteralAt s f id n .keyedLit a slot) (h' : p.LiteralAt s f id' n' .keyedLit a slot)
    (ha : p.MadeOf a ty kind wrap) (hheld : ty.made.length ≤ maxValues)
    (hswap : p.Swapped (n.children.drop 1) (n'.children.drop 1) before between after x y)
    (hok : p.perform f id s = .ok .done u) : p.perform f id' s = .ok .done u := by
  obtain ⟨hfit, ws, hws⟩ := h.exists_keyed ha hok
  obtain ⟨b, t, hb⟩ := exists_begins ha.composite ha.type ha.founded hfit s
  have hsame := hws
  rw [hswap.left, List.append_assoc] at hsame
  obtain ⟨before', wx, _, rfl, hbefore, hx, hrest⟩ := exists_insert_of_forall₂ hsame
  obtain ⟨between', wy, after', rfl, hbetween, hy, hafter⟩ := exists_insert_of_forall₂ hrest
  have hws' : List.Forall₂ (p.Keyed s f ty.made.length) (n'.children.drop 1)
      (before' ++ wy :: between' ++ wx :: after') := by
    rw [hswap.right]
    exact List.rel_append (List.rel_append hbefore (.cons hy hbetween)) (.cons hx hafter)
  have hlast : lastFor (before' ++ wx :: (between' ++ wy :: after')) =
      lastFor (before' ++ wy :: between' ++ wx :: after') := by
    rw [← List.cons_append, ← List.append_assoc]
    refine lastFor_swap (hswap.elsewhere.ne hheld hx hy) fun w hw => ?_
    obtain ⟨c, hc, hcw⟩ := exists_mem_of_forall₂ hbetween.flip hw
    obtain ⟨hcx, hcy⟩ := hswap.between c hc
    exact ⟨hcx.ne hheld hcw hx, hcy.ne hheld hcw hy⟩
  rw [h'.perform_keyed ha.composite hb hws', ← Store.setElements_congr hlast,
    ← h.perform_keyed ha.composite hb hws, hok]

/-! ### Agreement -/

/-- Literals that list their elements and literals with keys agree. -/
structure LiteralsAgree (p : Program) : Prop where
  /-- A literal that lists elements begins with them and is filled up, unless a zero value that it
  needs is too large. -/
  listing : ∀ {s f id n kind a ty wrap slot written}, p.LiteralAt s f id n kind a slot →
    p.MadeOf a ty kind wrap → p.elements f n s = .ok written → written.length ≤ ty.made.length →
    (¬p.graph.TooLarge ((ty.made.map some).drop written.length) →
      p.Composes f id s slot wrap (ty.made.map some) fun i => written[i]?) ∧
    (p.graph.TooLarge ((ty.made.map some).drop written.length) →
      ∃ t, p.perform f id s = .error .tooLarge t)
  /-- In a literal with keys the last element for each place counts, and all other places hold zero
  values. -/
  keyed : ∀ {s f id n kind a ty wrap slot ws}, p.LiteralAt s f id n .keyedLit a slot →
    p.MadeOf a ty kind wrap →
    List.Forall₂ (p.Keyed s f ty.made.length) (n.children.drop 1) ws →
    (¬p.graph.Oversized a → p.Composes f id s slot wrap (ty.made.map some) (lastFor ws)) ∧
    (p.graph.Oversized a → ∃ t, p.perform f id s = .error .tooLarge t)
  /-- It is made exactly if all its numbers are below the length and all its values are there. -/
  succeeds : ∀ {s f id n kind a ty wrap slot}, p.LiteralAt s f id n .keyedLit a slot →
    p.MadeOf a ty kind wrap → ¬p.graph.Oversized a → ty.made.length ≤ maxValues →
    ((∃ t, p.perform f id s = .ok .done t) ↔ ∀ c ∈ n.children.drop 1, ∃ m i v, p.node c = .ok m ∧
      m.field? = some i ∧ i < ty.made.length ∧
      (if m.kind = .keyValue then p.operand f c 1 else p.value f c) s = .ok v)
  /-- The same elements, listed or with keys in any order, make the same: these elements, and
  structurally equal zero values behind them. -/
  alike : ∀ {s s' f f' id id' n n' kind a ty wrap slot slot' written cs},
    p.LiteralAt s f id n kind a slot → p.LiteralAt s' f' id' n' .keyedLit a slot' →
    p.MadeOf a ty kind wrap → ¬p.graph.Oversized a → ty.made.length ≤ maxValues →
    p.elements f n s = .ok written → p.elements f' n s' = .ok written →
    written.length ≤ ty.made.length → p.Pairs (n.children.drop 1) cs →
    (n'.children.drop 1).Perm cs →
    ∃ b t c u, p.perform f id s = .ok .done (t.setSlot f slot (wrap b)) ∧
      p.perform f' id' s' = .ok .done (u.setSlot f' slot' (wrap c)) ∧
      p.graph.Composed s t b (ty.made.map some) (fun i => written[i]?) ∧
      p.graph.Composed s' u c (ty.made.map some) (fun i => written[i]?) ∧
      ∀ (i : Nat) (v w : Value), written.length ≤ i → (t.block b)[i]? = some v →
        (u.block c)[i]? = some w → t.Similar v u w
  /-- Two elements for different places can change places, if none between them is for the place of
  either. -/
  swapped : ∀ {s f id id' n n' kind a ty wrap slot before between after x y},
    p.LiteralAt s f id n .keyedLit a slot → p.LiteralAt s f id' n' .keyedLit a slot →
    p.MadeOf a ty kind wrap → ty.made.length ≤ maxValues →
    p.Swapped (n.children.drop 1) (n'.children.drop 1) before between after x y →
    ∀ u, p.perform f id s = .ok .done u ↔ p.perform f id' s = .ok .done u

/-- Literals agree in every program, whatever it has stored. -/
theorem literals_agree (p : Program) : p.LiteralsAgree where
  listing h ha hwritten hle := h.listing ha.composite ha.type ha.founded hwritten hle
  keyed h ha hkeyed :=
    ⟨h.keyed ha hkeyed, fun hlarge => h.keyed_of_oversized ha.founded hlarge⟩
  succeeds h ha hfit hheld := h.keyed_ok_iff ha hfit hheld
  alike h h' ha hfit hheld hwritten hsame hle hpairs hperm :=
    h.alike h' ha hfit hheld hwritten hsame hle hpairs hperm
  swapped h h' ha hheld hswap _ :=
    ⟨h.of_swapped h' ha hheld hswap, h'.of_swapped h ha hheld hswap.symm⟩

end Program

namespace Graph

/-- Two literals of a struct with an array that cannot be held in one piece, two literals with keys
that give one of two fields twice, and two literals that give the same element. -/
def colliding : Graph where
  globals := 1
  types := #[.int, .array ⟨0⟩ 4611686018427387904, .struct [("all", ⟨1⟩)],
    .struct [("x", ⟨0⟩), ("y", ⟨0⟩)]]
  nodes := #[
    { kind := .typeExpr, type := some ⟨2⟩ },
    { kind := .compositeLit, children := [⟨0⟩], slot := some 0 },
    { kind := .keyedLit, children := [⟨0⟩], slot := some 0 },
    { kind := .typeExpr, type := some ⟨3⟩ },
    { kind := .basicLit, payload := some (.literal (.int 1)) },
    { kind := .basicLit, payload := some (.literal (.int 2)) },
    { kind := .basicLit, payload := some (.literal (.int 3)) },
    { kind := .keyValue, children := [⟨4⟩, ⟨4⟩], payload := some (.field 0) },
    { kind := .keyValue, children := [⟨5⟩, ⟨5⟩], payload := some (.field 0) },
    { kind := .keyValue, children := [⟨6⟩, ⟨6⟩], payload := some (.field 1) },
    { kind := .keyedLit, children := [⟨3⟩, ⟨7⟩, ⟨8⟩, ⟨9⟩], slot := some 0 },
    { kind := .keyedLit, children := [⟨3⟩, ⟨9⟩, ⟨8⟩, ⟨7⟩], slot := some 0 },
    { kind := .compositeLit, children := [⟨3⟩, ⟨5⟩], slot := some 0 },
    { kind := .keyedLit, children := [⟨3⟩, ⟨8⟩], slot := some 0 }]

lemma founded_colliding : colliding.Founded ⟨2⟩ ∧ colliding.Founded ⟨3⟩ := by
  have hint : colliding.type? ⟨0⟩ = some .int := rfl
  have harray : colliding.type? ⟨1⟩ = some (.array ⟨0⟩ 4611686018427387904) := rfl
  have hlarge : colliding.type? ⟨2⟩ = some (.struct [("all", ⟨1⟩)]) := rfl
  have hpoint : colliding.type? ⟨3⟩ = some (.struct [("x", ⟨0⟩), ("y", ⟨0⟩)]) := rfl
  have hleaf : colliding.Founded ⟨0⟩ := .intro hint fun b hb => absurd hb List.not_mem_nil
  refine ⟨.intro hlarge (List.forall_mem_singleton.mpr (.intro harray ?_)), .intro hpoint ?_⟩
  · exact List.forall_mem_singleton.mpr hleaf
  · exact List.forall_mem_cons.mpr ⟨hleaf, List.forall_mem_singleton.mpr hleaf⟩

lemma oversized_colliding : colliding.Oversized ⟨1⟩ ∧ colliding.Oversized ⟨2⟩ ∧
    ¬colliding.Oversized ⟨3⟩ := by
  have harray : colliding.type? ⟨1⟩ = some (.array ⟨0⟩ 4611686018427387904) := rfl
  have hlarge : colliding.type? ⟨2⟩ = some (.struct [("all", ⟨1⟩)]) := rfl
  have hpoint : colliding.type? ⟨3⟩ = some (.struct [("x", ⟨0⟩), ("y", ⟨0⟩)]) := rfl
  have hvast : colliding.Oversized ⟨1⟩ := .array harray (by decide)
  refine ⟨hvast, .part hlarge (List.mem_singleton.mpr rfl) hvast, fun h => ?_⟩
  obtain ⟨elem, length, he, -⟩ | ⟨b, hb, hpart⟩ := (oversized_iff hpoint).mp h
  · cases he
  · have hb : b = ⟨0⟩ := by simpa [Ty.made] using hb
    have hint : colliding.type? b = some .int := hb ▸ rfl
    obtain ⟨elem, length, he, -⟩ | ⟨c, hc, -⟩ := (oversized_iff hint).mp hpart
    · cases he
    · cases hc

end Graph

/-- The program, as it is loaded. -/
def collidingProgram : Program where
  graph := colliding
  constants := #[none, none, none, none, some (.int 1), some (.int 2), some (.int 3), none, none,
    none, none, none, none, none]
  natives := .empty
  config := {}

/-- The same element, listed and with its key, makes the same struct. -/
theorem Program.literals_agree_colliding : ∃ start,
    Machine.load colliding .empty {} true = .ok start ∧
    ∃ (b c : BlockId) (t u : Store),
      start.program.perform globalFrame ⟨12⟩ start.store =
        .ok .done (t.setSlot globalFrame 0 (.struct b)) ∧ (t.block b)[0]? = some (.int 2) ∧
      start.program.perform globalFrame ⟨13⟩ start.store =
        .ok .done (u.setSlot globalFrame 0 (.struct c)) ∧ (u.block c)[0]? = some (.int 2) ∧
      ∀ v w, (t.block b)[1]? = some v → (u.block c)[1]? = some w → t.Similar v u w := by
  have hload : Machine.load colliding .empty {} true =
      .ok (.ofProgram collidingProgram true) := rfl
  refine ⟨_, hload, ?_⟩
  let start : Store := (Machine.ofProgram collidingProgram true).store
  have hpoint : collidingProgram.MadeOf ⟨3⟩ (.struct [("x", ⟨0⟩), ("y", ⟨0⟩)]) .compositeLit
      .struct := ⟨.struct _, rfl, founded_colliding.2⟩
  have hlit : collidingProgram.LiteralAt start globalFrame ⟨12⟩ _ .compositeLit ⟨3⟩ 0 :=
    ⟨rfl, rfl, rfl, rfl, by decide⟩
  have hlit' : collidingProgram.LiteralAt start globalFrame ⟨13⟩ _ .keyedLit ⟨3⟩ 0 :=
    ⟨rfl, rfl, rfl, rfl, by decide⟩
  have hpairs : collidingProgram.Pairs [⟨5⟩] [⟨8⟩] := by
    refine ⟨rfl, fun i e c he hc => ?_⟩
    cases i with
    | zero =>
      cases he
      cases hc
      exact ⟨_, rfl, rfl, rfl, rfl⟩
    | succ i => cases he
  obtain ⟨b, t, c, u, ht, hu, hb, hc, halike⟩ := (Program.literals_agree collidingProgram).alike
    hlit hlit' hpoint oversized_colliding.2.2 (by decide) rfl rfl (by decide) hpairs (.refl _)
  exact ⟨b, c, t, u, ht, hb.holds 0 (by decide) _ rfl, hu, hc.holds 0 (by decide) _ rfl,
    fun v w => halike 1 v w (by decide)⟩

/-- A struct whose type is not nested in itself is not made if it is too large, neither by a list
without elements nor by a literal without keys. And elements for different fields cannot always
change places: here one between them names the field of one of them. -/
theorem Program.literals_differ : ∃ start,
    Machine.load colliding .empty {} true = .ok start ∧ colliding.Founded ⟨2⟩ ∧
    (∃ t, start.program.perform globalFrame ⟨1⟩ start.store = .error .tooLarge t) ∧
    (∃ t, start.program.perform globalFrame ⟨2⟩ start.store = .error .tooLarge t) ∧
    ∃ (b c : BlockId) (t u : Store),
      start.program.perform globalFrame ⟨10⟩ start.store =
        .ok .done (t.setSlot globalFrame 0 (.struct b)) ∧ (t.block b)[0]? = some (.int 2) ∧
      start.program.perform globalFrame ⟨11⟩ start.store =
        .ok .done (u.setSlot globalFrame 0 (.struct c)) ∧ (u.block c)[0]? = some (.int 1) := by
  have hload : Machine.load colliding .empty {} true =
      .ok (.ofProgram collidingProgram true) := rfl
  refine ⟨_, hload, founded_colliding.1, ?_, ?_, ?_⟩
  · have hlit : collidingProgram.LiteralAt (Machine.ofProgram collidingProgram true).store
        globalFrame ⟨1⟩ _ .compositeLit ⟨2⟩ 0 := ⟨rfl, rfl, rfl, rfl, by decide⟩
    refine (hlit.listing (.struct _) rfl founded_colliding.1 rfl (Nat.zero_le _)).2 ?_
    exact ⟨⟨1⟩, List.mem_singleton.mpr rfl, oversized_colliding.1⟩
  · have hlit : collidingProgram.LiteralAt (Machine.ofProgram collidingProgram true).store
        globalFrame ⟨2⟩ _ .keyedLit ⟨2⟩ 0 := ⟨rfl, rfl, rfl, rfl, by decide⟩
    exact hlit.keyed_of_oversized founded_colliding.1 oversized_colliding.2.1
  · have hpoint : collidingProgram.MadeOf ⟨3⟩ (.struct [("x", ⟨0⟩), ("y", ⟨0⟩)]) .compositeLit
        .struct := ⟨.struct _, rfl, founded_colliding.2⟩
    have hfit := oversized_colliding.2.2
    let start : Store := (Machine.ofProgram collidingProgram true).store
    have hone : collidingProgram.Keyed start globalFrame 2 ⟨7⟩ (0, .int 1) :=
      ⟨_, 0, rfl, rfl, rfl, rfl⟩
    have htwo : collidingProgram.Keyed start globalFrame 2 ⟨8⟩ (0, .int 2) :=
      ⟨_, 0, rfl, rfl, rfl, rfl⟩
    have hthree : collidingProgram.Keyed start globalFrame 2 ⟨9⟩ (1, .int 3) :=
      ⟨_, 1, rfl, rfl, rfl, rfl⟩
    have hlit : collidingProgram.LiteralAt start globalFrame ⟨10⟩ _ .keyedLit ⟨3⟩ 0 :=
      ⟨rfl, rfl, rfl, rfl, by decide⟩
    have hlit' : collidingProgram.LiteralAt start globalFrame ⟨11⟩ _ .keyedLit ⟨3⟩ 0 :=
      ⟨rfl, rfl, rfl, rfl, by decide⟩
    obtain ⟨b, t, ht, hb⟩ := hlit.keyed hpoint (.cons hone (.cons htwo (.cons hthree .nil))) hfit
    obtain ⟨c, u, hu, hc⟩ := hlit'.keyed hpoint (.cons hthree (.cons htwo (.cons hone .nil))) hfit
    exact ⟨b, c, t, u, ht, hb.holds 0 (by decide) _ rfl, hu, hc.holds 0 (by decide) _ rfl⟩

end Flowgraph
