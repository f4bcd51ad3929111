import Flowgraph.Proofs.Apart.Rest
import Flowgraph.Proofs.Assign.Simultaneous
import Flowgraph.Proofs.Literals.Elements
import Flowgraph.Proofs.Zeros.Made

/-!
# Where zero values are put

Zero values go to the destinations of an assignment, to the elements of a slice that is made, and to
the elements and fields of literals that are not written. Wherever they go, they share nothing.
-/

namespace Flowgraph

open Flowgraph.Graph

variable {g : Graph} {s t u : Store} {τ : Option TypeId} {τs : List (Option TypeId)} {v : Value}
  {vs written : List Value} {b : BlockId} {a : TypeId}

/-! ### Blocks that are filled up -/

namespace Graph

/-- Zero values have been made since a store `s` and put into a block of their own, beside what was
written there. They share nothing with one another, with what was written, with the block that holds
them, or with anything else that has been there before. -/
structure Filled (g : Graph) (s t : Store) (b : BlockId) (written : List Value)
    (τs : List (Option TypeId)) (vs : List Value) : Prop where
  extended : s.Extended t
  zeros : g.ZerosApart s t τs vs
  new : s.blocks.size ≤ b.index
  apart : ¬t.Occupied vs b
  older : ∀ c, t.Occupied written c → c.index < s.blocks.size

/-- A new block changes nothing about zero values, and is not one of theirs. -/
lemma ZeroValues.newBlock (h : g.ZeroValues s t τs vs) (elements : Array Value) :
    g.ZeroValues s (t.newBlock elements).2 τs vs ∧
      ¬(t.newBlock elements).2.Occupied vs (t.newBlock elements).1 := by
  have hpushed : Carried t.blocks (t.newBlock elements).2.blocks := (Carried.refl _).push _
  refine ⟨h.carried hpushed, ?_⟩
  rintro ⟨P, x, hx, hb⟩
  rw [Store.among?_eq_of_occupied fun c hc => Store.block_of_carried hpushed (h.new c hc).2] at hx
  exact Nat.lt_irrefl _ (h.new _ ⟨P, x, hx, hb⟩).2

/-- Elements of a zero value are written over. What they were is apart from its block, and stays
what it was. -/
lemma ZeroValues.setElements (h : g.ZeroValues s t [τ] [v]) (hv : v.block? = some b)
    (hshapes : List.Forall₂ (g.Zeroed t) τs (t.block b).toList) (hext : s.Extended t)
    (ws : List (Nat × Value)) :
    s.Extended (t.setElements b ws) ∧
      g.ZeroValues s (t.setElements b ws) τs (t.block b).toList ∧
      ¬(t.setElements b ws).Occupied (t.block b).toList b := by
  obtain ⟨hinner, hnot⟩ := h.inner hv hshapes
  have hnew : s.blocks.size ≤ b.index := (h.new b ⟨[0], _, rfl, hv⟩).1
  have hrewritten := t.rewritten_setElements b ws
  obtain ⟨hcarried, hbeside⟩ := hrewritten.carried (fun c i h => h.1 ▸ hnew) hext.carried
  have hsame : ∀ c, t.Occupied (t.block b).toList c → (t.setElements b ws).block c = t.block c :=
    fun c hc => hrewritten.block fun i h => hnot (h.1 ▸ hc)
  refine ⟨⟨hcarried, by rw [hbeside, hext.beside]⟩,
    hinner.congr hsame hrewritten.extends.count, ?_⟩
  rintro ⟨P, x, hx, hb⟩
  rw [Store.among?_eq_of_occupied hsame] at hx
  exact hnot ⟨P, x, hx, hb⟩

/-- Zero values are put into a block behind what was written. -/
lemma ZeroValues.filled (h : g.ZeroValues s t τs vs) (hs : s.Closed) (hext : s.Extended t)
    (hwritten : ∀ v ∈ written, Within s.size v) :
    g.Filled s (t.newBlock (written ++ vs).toArray).2 (t.newBlock (written ++ vs).toArray).1 written
      τs vs := by
  have hext' := hext.newBlock (written ++ vs).toArray
  obtain ⟨hin, hapart⟩ := h.newBlock (written ++ vs).toArray
  constructor
  case extended => exact hext'
  case zeros => exact hin.apart hs hext'.carried (by rw [hext'.beside]) (by rw [hext'.beside])
  case new => exact hext.carried.size_le
  case apart => exact hapart
  case older => exact fun c hc => hs.lt_of_occupied hwritten hext'.carried hc

/-- Values are written over fields of a struct of zero values. -/
lemma ZeroValues.overFields {fields : List (String × TypeId)} {ws : List (Nat × Value)}
    (h : g.ZeroValues s t [some a] [.struct b]) (hty : g.type? a = some (.struct fields))
    (hs : s.Closed) (hext : s.Extended t) (hws : ∀ w ∈ ws, Within s.size w.2) :
    g.Filled s (t.setElements b ws) b (ws.map Prod.snd) ((fields.map Prod.snd).map some)
      (t.block b).toList := by
  have hshapes := (zeroed_struct_iff hty).mp (List.forall₂_cons.mp h.shapes).1
  obtain ⟨hext', hfields, hapart⟩ := h.setElements rfl hshapes hext ws
  constructor
  case extended => exact hext'
  case zeros => exact hfields.apart hs hext'.carried (by rw [hext'.beside]) (by rw [hext'.beside])
  case new => exact (h.new b ⟨[0], _, rfl, rfl⟩).1
  case apart => exact hapart
  case older =>
    exact fun c hc => hs.lt_of_occupied (List.forall_mem_map.mpr hws) hext'.carried hc

/-- A composite value whose elements are those that were written and then zero values is made, and
handed on. If an array is too large, the operation stops. -/
def Pads (g : Graph) (s : Store) (written : List Value) (τs : List (Option TypeId))
    (value : BlockId → Value) (next : Value → Op Unit) (r : EStateM.Result Stop Store Unit) :
    Prop :=
  (¬g.TooLarge τs → ∃ b vs t, r = next (value b) t ∧ t.block b = (written ++ vs).toArray ∧
    g.Filled s t b written τs vs) ∧
  (g.TooLarge τs → ∃ t, r = .error .tooLarge t)

lemma Makes.pads {x : Op (List Value)} (h : g.Makes τs id x) (hs : s.Closed)
    (hwritten : ∀ v ∈ written, Within s.size v) (value : BlockId → Value) (next : Value → Op Unit) :
    g.Pads s written τs value next ((do
      let rest ← x
      let b ← Op.create fun s => s.newBlock (written ++ rest).toArray
      next (value b)) s) := by
  constructor
  · intro hfit
    obtain ⟨vs, t, hx, hext, hvs⟩ := h.ok hfit s
    refine ⟨_, vs, _, ?_, Store.block_newBlock_self t (written ++ vs).toArray,
      ZeroValues.filled hvs hs hext hwritten⟩
    rw [Op.bind_apply, hx]
    rfl
  · intro hlarge
    obtain ⟨t, hx⟩ := h.error hlarge s
    refine ⟨t, ?_⟩
    rw [Op.bind_apply, hx]

end Graph

/-! ### What operands denote -/

namespace Program

variable {p : Program} {f : FrameId} {id : NodeId} {n : Node}

section Within

variable (hp : p.Loaded) (hs : s.Closed)

include hp hs

/-- What a node denotes has been there before. -/
lemma gives_within (f : FrameId) (id : NodeId) :
    Look.Gives (fun t => t = s) (fun _ => True) (p.value f id) (Within s.size) := by
  refine .bind (.lift (ends_any _)) fun n hn => ?_
  have hconstant : Within s.size ((p.constant? id).getD .nil) := fun T k hk =>
    absurd hk (hp.not_mentions_constant hn T k)
  split_ifs
  · exact .pure hconstant
  · refine .bind (Look.gives_any _) fun owner _ => ?_
    cases n.slot with
    | none => exact .pure hconstant
    | some slot =>
      refine .read fun t ht => ?_
      subst ht
      cases hv : t.slot? owner slot with
      | none => exact trivial
      | some v => exact fun T k hk => hs.content (.slot owner slot) T k ⟨v, hv, hk⟩

lemma within_elements (h : p.elements f n s = .ok written) : ∀ v ∈ written, Within s.size v := by
  have hgives : Look.Gives (fun t => t = s) (fun _ => True) (p.elements f n)
      fun vs => ∀ v ∈ vs, Within s.size v := .mapM fun c _ => gives_within hp hs f c
  have hwritten := hgives s rfl
  rwa [h] at hwritten

end Within

/-! ### Literals -/

/-- An array literal is filled up to its length. -/
lemma pads_arrayLit {elem : TypeId} {length : Nat} (hp : p.Loaded) (hs : s.Closed)
    (hn : p.node id = .ok n) (hwritten : p.elements f n s = .ok written)
    (hshape : p.literalShape n = .ok (some (.array elem length)))
    (helem : p.graph.Founded elem) :
    p.graph.Pads s written (List.replicate (length - written.length) (some elem)) .slice
      (p.setOwn f id) (p.arrayLit f id s) := by
  have hmakes := (makes_zero_some helem).times (length - written.length)
  have hpads := hmakes.pads hs (within_elements hp hs hwritten) .slice (p.setOwn f id)
  rw [arrayLit, Op.except_bind_apply, hn]
  dsimp only
  rw [Op.look_bind_apply, hwritten]
  dsimp only
  rw [Op.except_bind_apply, hshape]
  exact hpads

/-- A struct literal is filled up with its trailing fields. -/
lemma pads_compositeLit {fields : List (String × TypeId)} (hp : p.Loaded) (hs : s.Closed)
    (hn : p.node id = .ok n) (hwritten : p.elements f n s = .ok written)
    (hshape : p.literalShape n = .ok (some (.struct fields)))
    (hfields : ∀ a ∈ fields.map Prod.snd, p.graph.Founded a) :
    p.graph.Pads s written (((fields.map Prod.snd).drop written.length).map some) .struct
      (p.setOwn f id) (p.compositeLit f id s) := by
  have hmakes : p.graph.Makes (((fields.map Prod.snd).drop written.length).map some) (fun vs => vs)
      (p.zeros ((fields.map Prod.snd).drop written.length)) :=
    Makes.mapM fun a ha => makes_zero_some (hfields a (List.mem_of_mem_drop ha))
  have hpads := hmakes.pads hs (within_elements hp hs hwritten) .struct (p.setOwn f id)
  rw [compositeLit, Op.except_bind_apply, hn]
  dsimp only
  rw [Op.look_bind_apply, hwritten]
  dsimp only
  rw [Op.except_bind_apply, hshape]
  exact hpads

/-- The elements of a slice that is made are zero values. -/
lemma pads_make {elem : TypeId} {size : Nat} (hs : s.Closed) (htype : p.madeType id = .ok a)
    (hsize : p.madeSize f id s = .ok size) (hshape : p.type a = .ok (.slice elem))
    (hfit : size ≤ maxValues) (helem : p.graph.Founded elem) :
    p.graph.Pads s [] (List.replicate size (some elem)) .slice (p.setOwn f id) (p.make f id s) := by
  have hmakes := (makes_zero_some helem).times size
  have hpads := hmakes.pads hs (fun v hv => absurd hv List.not_mem_nil) .slice (p.setOwn f id)
  rw [make, Op.except_bind_apply, htype]
  dsimp only
  rw [Op.look_bind_apply, hsize]
  dsimp only
  rw [Op.except_bind_apply, hshape]
  dsimp only
  rw [Op.except_bind_apply, checkSize, if_pos hfit]
  exact hpads

/-- A slice that could not be held in one piece is not made. -/
lemma make_of_oversized {elem : TypeId} {size : Nat} (htype : p.madeType id = .ok a)
    (hsize : p.madeSize f id s = .ok size) (hshape : p.type a = .ok (.slice elem))
    (hlarge : maxValues < size) : p.make f id s = .error .tooLarge s := by
  rw [make, Op.except_bind_apply, htype]
  dsimp only
  rw [Op.look_bind_apply, hsize]
  dsimp only
  rw [Op.except_bind_apply, hshape]
  dsimp only
  rw [Op.except_bind_apply, checkSize, if_neg (Nat.not_le.mpr hlarge)]

/-! ### Assignments -/

/-- Zero values are made for destinations and stored there, one after the other. The outcome is as
if all of them were made first. -/
lemma assignZeros {ds : List NodeId} {ts : List (Option Site)}
    (hτ : ∀ a, τ = some a → p.graph.Founded a) (hts : List.Forall₂ (p.Targets s f) ds ts) :
    match (ds.forM fun d => do p.assignTo f d (← p.graph.zero τ) : Op Unit) s with
    | .ok _ u => ¬p.graph.TooLarge (List.replicate ds.length τ) ∧ ∃ vs t, s.Extended t ∧
      p.graph.ZeroValues s t (List.replicate ds.length τ) vs ∧ u = t.writeAll (ts.zip vs)
    | .error e _ => e = .tooLarge ∧ p.graph.TooLarge (List.replicate ds.length τ) := by
  induction ds generalizing s ts with
  | nil => exact ⟨not_tooLarge_nil, [], s, .refl s, .nil _ s, by simp⟩
  | cons d ds ih =>
    obtain ⟨site, ts, hsite, hrest, rfl⟩ := List.forall₂_cons_left_iff.mp hts
    have hmade := makes_zero hτ s
    change match ((p.graph.zero τ >>= fun v => p.assignTo f d v) >>= fun _ =>
      ds.forM fun d => do p.assignTo f d (← p.graph.zero τ) : Op Unit) s with
      | .ok _ u => _
      | .error e _ => _
    rw [Op.bind_apply, Op.bind_apply]
    rw [List.length_cons, List.replicate_succ]
    cases hzero : p.graph.zero τ s with
    | error e u =>
      rw [hzero] at hmade
      exact ⟨hmade.1, tooLarge_cons.mpr (.inl hmade.2.1)⟩
    | ok v u =>
      rw [hzero] at hmade
      obtain ⟨hfit, hext, hv⟩ := hmade
      have hframes : u.frames = s.frames := by rw [hext.beside]
      have hwrite := (hsite.of_frames hframes).assignTo v
      have hothers := ih (s := u.write site v)
        (hrest.imp fun _ _ hd => (hd.of_frames hframes).write site v)
      dsimp only
      rw [hwrite]
      dsimp only
      cases hall : (ds.forM fun d => do p.assignTo f d (← p.graph.zero τ) : Op Unit)
        (u.write site v) with
      | error e w =>
        rw [hall] at hothers
        exact ⟨hothers.1, tooLarge_cons.mpr (.inr hothers.2)⟩
      | ok r w =>
        rw [hall] at hothers
        obtain ⟨hfit', vs, t, hext', hvs, rfl⟩ := hothers
        have hcarried : Carried u.blocks t.blocks := by
          rw [← Store.blocks_write u site v]
          exact hext'.carried
        refine ⟨fun h => (tooLarge_cons.mp h).elim hfit hfit', v :: vs,
          { s with blocks := t.blocks }, ⟨hext.carried.trans hcarried, rfl⟩, ?_, ?_⟩
        · have hvs' := hvs.of_blocks (r := u) (w := { s with blocks := t.blocks })
            (Store.blocks_write u site v).symm rfl
          exact hv.cons hvs' hext.carried.size_le hcarried
        · have hsame : ({ s with blocks := t.blocks } : Store).write site v = t := by
            rw [hext'.beside, hext.beside]
            cases site <;> rfl
          rw [List.zip_cons_cons, Store.writeAll_cons, hsame]

/-- Each destination gets a zero value of its own. -/
lemma assignZero_apart {ts : List (Option Site)} (hs : s.Closed) (hn : p.node id = .ok n)
    (hts : List.Forall₂ (p.Targets s f) n.children.dropLast ts)
    (htype : ∀ a, n.type = some a → p.graph.Founded a) :
    (¬p.graph.TooLarge (List.replicate n.children.dropLast.length n.type) →
      ∃ vs t u, p.assignZero f id s = .ok () u ∧ s.Extended t ∧ t.Stored ts vs u ∧
        p.graph.ZerosApart s u (List.replicate n.children.dropLast.length n.type) vs) ∧
    (p.graph.TooLarge (List.replicate n.children.dropLast.length n.type) →
      ∃ u, p.assignZero f id s = .error .tooLarge u) := by
  have hall := assignZeros htype hts
  rw [assignZero, Op.except_bind_apply, hn]
  dsimp only
  cases hr : (n.children.dropLast.forM fun d => do p.assignTo f d (← p.graph.zero n.type) :
    Op Unit) s with
  | error e u =>
    rw [hr] at hall
    exact ⟨fun hfit => absurd hall.2 hfit, fun _ => ⟨u, by rw [hall.1]⟩⟩
  | ok r u =>
    rw [hr] at hall
    obtain ⟨hfit, vs, t, hext, hvs, rfl⟩ := hall
    refine ⟨fun _ => ⟨vs, t, _, rfl, hext, ?_, ?_⟩, fun hlarge => absurd hlarge hfit⟩
    · refine Store.stored_writeAll ?_ fun l hl => ?_
      · rw [← hts.length_eq, ← hvs.shapes.length_eq, List.length_replicate]
      · exact lt_of_targets (hts.imp fun _ _ hd => hd.of_frames (by rw [hext.beside])) hl
    · have hbeside := Store.writeAll_eq t (ts.zip vs)
      have hblocks : (t.writeAll (ts.zip vs)).blocks = t.blocks := by rw [hbeside]
      refine (hvs.of_blocks rfl hblocks).apart hs (hblocks ▸ hext.carried) ?_ ?_
      · rw [hbeside, hext.beside]
      · rw [hbeside, hext.beside]

/-! ### Keyed literals -/

/-- What a keyed element writes: a value, and the number of the element that it goes to. -/
def Keyed (p : Program) (s : Store) (f : FrameId) (size : Nat) (c : NodeId) (w : Nat × Value) :
    Prop :=
  ∃ n field, p.node c = .ok n ∧ n.field? = some field ∧
    checkIndex (saturate field) size = .ok w.1 ∧
    (if n.kind = .keyValue then p.operand f c 1 else p.value f c) s = .ok w.2

variable {size : Nat} {c : NodeId} {w : Nat × Value} {cs : List NodeId} {ws : List (Nat × Value)}

lemma Keyed.within (hp : p.Loaded) (hs : s.Closed) (h : p.Keyed s f size c w) :
    Within s.size w.2 := by
  obtain ⟨n, field, -, -, -, hv⟩ := h
  have hgives : Look.Gives (fun t => t = s) (fun _ => True)
      (if n.kind = .keyValue then p.operand f c 1 else p.value f c) (Within s.size) := by
    split_ifs
    · exact .bind (.lift (ends_any _)) fun c _ => gives_within hp hs f c
    · exact gives_within hp hs f c
  have hw := hgives s rfl
  rwa [hv] at hw

lemma Keyed.setKeyed (h : p.Keyed s f size c w) (ht : t.frames = s.frames)
    (hsize : (t.block b).size = size) :
    p.setKeyed f b c t = .ok () (t.setElement b w.1 w.2) := by
  obtain ⟨n, field, hn, hfield, hindex, hv⟩ := h
  have hset : Op.setElement b (saturate field) w.2 t = .ok () (t.setElement b w.1 w.2) := by
    simp only [Op.setElement, Op.bind_apply, Op.read, hsize, hindex, Op.modify_apply]
  rw [Program.setKeyed, Op.except_bind_apply, hn]
  dsimp only
  rw [hfield]
  dsimp only
  split_ifs with hk
  · rw [if_pos hk] at hv
    have hsame : p.operand f c 1 t = p.operand f c 1 s :=
      Look.bind_congr rfl fun c => value_of_frames ht
    rw [Op.look_bind_apply, hsame, hv]
    exact hset
  · rw [if_neg hk] at hv
    rw [Op.look_bind_apply, value_of_frames ht, hv]
    exact hset

/-- Keyed elements are written one after the other. -/
lemma setKeyeds (h : List.Forall₂ (p.Keyed s f size) cs ws) (ht : t.frames = s.frames)
    (hsize : (t.block b).size = size) :
    (cs.forM (p.setKeyed f b) : Op Unit) t = .ok () (t.setElements b ws) := by
  induction h generalizing t with
  | nil => rfl
  | @cons c w cs ws hc _ ih =>
    have hsize' : ((t.setElement b w.1 w.2).block b).size = size := by
      rw [Store.block_setElement, if_pos rfl, Array.size_setIfInBounds, hsize]
    change (p.setKeyed f b c >>= fun _ => cs.forM (p.setKeyed f b)) t = _
    rw [Op.bind_apply, hc.setKeyed ht hsize]
    exact ih (t := t.setElement b w.1 w.2) ht hsize'

/-- What a literal with keys does once its zero value is there. -/
lemma keyedLit_unfold (hn : p.node id = .ok n) (htype : p.literalType n = .ok (some a)) :
    p.keyedLit f id s = (p.graph.zero (some a) >>= fun v => do
      let b ← v.asBlock "keyed literal"
      (n.children.drop 1).forM (p.setKeyed f b)
      p.setOwn f id v) s := by
  rw [keyedLit, Op.except_bind_apply, hn]
  dsimp only
  rw [Op.except_bind_apply, htype]

/-- The fields of a keyed literal that are not written are zero values. -/
lemma keyedLit_apart {fields : List (String × TypeId)} (hp : p.Loaded) (hs : s.Closed)
    (hn : p.node id = .ok n) (htype : p.literalType n = .ok (some a))
    (hty : p.graph.type? a = some (.struct fields)) (ha : p.graph.Founded a)
    (hkeyed : List.Forall₂ (p.Keyed s f fields.length) (n.children.drop 1) ws) :
    (¬p.graph.Oversized a → ∃ b vs t, p.keyedLit f id s = p.setOwn f id (.struct b) t ∧
      (t.block b).size = fields.length ∧
      (∀ i, i ∉ ws.map Prod.fst → (t.block b)[i]? = vs[i]?) ∧
      p.graph.Filled s t b (ws.map Prod.snd) ((fields.map Prod.snd).map some) vs) ∧
    (p.graph.Oversized a → ∃ t, p.keyedLit f id s = .error .tooLarge t) := by
  have hmakes := makes_zero_some ha
  rw [keyedLit_unfold hn htype]
  constructor
  case right =>
    intro hlarge
    obtain ⟨t, ht⟩ := hmakes.error (tooLarge_singleton.mpr hlarge) s
    exact ⟨t, by rw [Op.bind_apply, ht]⟩
  case left =>
    intro hfit
    obtain ⟨v, u, hzero, hext, hv⟩ := hmakes.ok (fun h => hfit (tooLarge_singleton.mp h)) s
    change p.graph.ZeroValues s u [some a] [v] at hv
    have hshape : p.graph.Zeroed u (some a) v := (List.forall₂_cons.mp hv.shapes).1
    obtain ⟨b, rfl⟩ := hshape.exists_struct hty
    have hsize : (u.block b).size = fields.length := by
      have hlength := ((zeroed_struct_iff hty).mp hshape).length_eq
      rw [List.length_map, List.length_map, Array.length_toList] at hlength
      exact hlength.symm
    have ht := setKeyeds (b := b) hkeyed (t := u) (by rw [hext.beside]) hsize
    have hrewritten := u.rewritten_setElements b ws
    have hwithin : ∀ w ∈ ws, Within s.size w.2 := by
      have hboth := hkeyed.flip.imp fun _ _ h => And.intro (Keyed.within hp hs h) h
      exact ((List.forall₂_and_left _ _).mp hboth).1
    refine ⟨b, (u.block b).toList, u.setElements b ws, ?_, ?_, ?_,
      hv.overFields hty hs hext hwithin⟩
    · rw [Op.bind_apply, hzero]
      dsimp only
      rw [Op.except_bind_apply, Value.asBlock]
      dsimp only
      rw [Op.bind_apply, ht]
    · rw [hrewritten.extends.size b (hv.new b ⟨[0], _, rfl, rfl⟩).2, hsize]
    · intro i hi
      rw [hrewritten.getElem? fun h => hi h.2, Array.getElem?_toList]

end Program

end Flowgraph
