import Flowgraph.Proofs.Zeros.Uses

/-!
# Zero values share nothing

The zero value of a type that is not nested in itself follows the descriptor of the type, unless an
array is too large to be held in one piece. It is made of blocks of its own, so that no write to it
is seen elsewhere. The same is true of all places that a program puts zero values into.
-/

namespace Flowgraph

open Flowgraph.Graph

/-- What becomes of the zero values that a program asks for in a store. -/
structure Program.ZerosApart (p : Program) (s : Store) : Prop where
  /-- The zero value of a type. -/
  zero : ∀ a, p.graph.Founded a →
    (¬p.graph.Oversized a → ∃ v t, p.graph.zero (some a) s = .ok v t ∧ s.Extended t ∧
      p.graph.ZerosApart s t [some a] [v]) ∧
    (p.graph.Oversized a → ∃ t, p.graph.zero (some a) s = .error .tooLarge t)
  /-- The destinations of an assignment of zero values. -/
  assignZero : ∀ f id n ts, p.node id = .ok n →
    List.Forall₂ (p.Targets s f) n.children.dropLast ts →
    (∀ a, n.type = some a → p.graph.Founded a) →
    (¬p.graph.TooLarge (List.replicate n.children.dropLast.length n.type) →
      ∃ vs t u, p.assignZero f id s = .ok () u ∧ s.Extended t ∧ t.Stored ts vs u ∧
        p.graph.ZerosApart s u (List.replicate n.children.dropLast.length n.type) vs) ∧
    (p.graph.TooLarge (List.replicate n.children.dropLast.length n.type) →
      ∃ u, p.assignZero f id s = .error .tooLarge u)
  /-- The elements of a slice that is made. -/
  make : ∀ f id a elem size, p.madeType id = .ok a → p.madeSize f id s = .ok size →
    p.type a = .ok (.slice elem) → p.graph.Founded elem →
    (size ≤ maxValues → p.graph.Pads s [] (List.replicate size (some elem)) .slice (p.setOwn f id)
      (p.make f id s)) ∧
    (maxValues < size → p.make f id s = .error .tooLarge s)
  /-- The elements of an array literal that are not written. -/
  arrayLit : ∀ f id n written elem length, p.node id = .ok n → p.elements f n s = .ok written →
    p.literalShape n = .ok (some (.array elem length)) → p.graph.Founded elem →
    p.graph.Pads s written (List.replicate (length - written.length) (some elem)) .slice
      (p.setOwn f id) (p.arrayLit f id s)
  /-- The trailing fields of a struct literal. -/
  compositeLit : ∀ f id n written fields, p.node id = .ok n → p.elements f n s = .ok written →
    p.literalShape n = .ok (some (.struct fields)) →
    (∀ a ∈ fields.map Prod.snd, p.graph.Founded a) →
    p.graph.Pads s written (((fields.map Prod.snd).drop written.length).map some) .struct
      (p.setOwn f id) (p.compositeLit f id s)
  /-- The fields of a keyed literal that are not written. -/
  keyedLit : ∀ f id n a fields ws, p.node id = .ok n → p.literalType n = .ok (some a) →
    p.graph.type? a = some (.struct fields) → p.graph.Founded a →
    List.Forall₂ (p.Keyed s f fields.length) (n.children.drop 1) ws →
    (¬p.graph.Oversized a → ∃ b vs t, p.keyedLit f id s = p.setOwn f id (.struct b) t ∧
      (t.block b).size = fields.length ∧
      (∀ i, i ∉ ws.map Prod.fst → (t.block b)[i]? = vs[i]?) ∧
      p.graph.Filled s t b (ws.map Prod.snd) ((fields.map Prod.snd).map some) vs) ∧
    (p.graph.Oversized a → ∃ t, p.keyedLit f id s = .error .tooLarge t)

lemma Program.zerosApart_of_closed {p : Program} {s : Store} (hp : p.Loaded) (hs : s.Closed) :
    p.ZerosApart s where
  zero a ha := by
    have hmakes := makes_zero_some ha
    rw [← tooLarge_singleton]
    refine ⟨fun hfit => ?_, fun hlarge => hmakes.error hlarge s⟩
    obtain ⟨v, t, hzero, hext, hv⟩ := hmakes.ok hfit s
    refine ⟨v, t, hzero, hext, ZeroValues.apart hv hs hext.carried ?_ ?_⟩
    · rw [hext.beside]
    · rw [hext.beside]
  assignZero _ _ _ _ hn hts htype := assignZero_apart hs hn hts htype
  make _ _ _ _ _ htype hsize hshape helem :=
    ⟨fun hfit => pads_make hs htype hsize hshape hfit helem,
      fun hlarge => make_of_oversized htype hsize hshape hlarge⟩
  arrayLit _ _ _ _ _ _ hn hwritten hshape helem := pads_arrayLit hp hs hn hwritten hshape helem
  compositeLit _ _ _ _ _ hn hwritten hshape hfields :=
    pads_compositeLit hp hs hn hwritten hshape hfields
  keyedLit _ _ _ _ _ _ hn htype hty ha hkeyed := keyedLit_apart hp hs hn htype hty ha hkeyed

/-- Whatever a host has done with a machine: zero values have the shape of their types and share
nothing, wherever a program puts them. They are made unless an array is too large. -/
theorem Machine.zeros_apart {graph : Graph} {natives : Registry} {config : Config} {kept : Bool}
    {loaded m : Machine} (hblind : natives.Blind)
    (hload : Machine.load graph natives config kept = .ok loaded) (hm : loaded.Attains m) :
    m.program.ZerosApart m.store := by
  have hkept := (Machine.kept_of_load hblind hload).attains hm
  exact Program.zerosApart_of_closed hkept.loaded hkept.grounded.store

namespace Graph

/-- An array that cannot be held in one piece. -/
def vast : Graph where
  types := #[.int, .array ⟨0⟩ 4611686018427387904]

/-- Its type is not nested in itself, and yet it has no zero value. -/
theorem not_zero_vast :
    vast.Founded ⟨1⟩ ∧ ∀ s v t, vast.zero (some ⟨1⟩) s ≠ .ok v t := by
  have hint : vast.type? ⟨0⟩ = some .int := rfl
  have harray : vast.type? ⟨1⟩ = some (.array ⟨0⟩ 4611686018427387904) := rfl
  have hfounded : vast.Founded ⟨1⟩ := by
    refine .intro harray fun b hb => ?_
    rw [List.mem_singleton.mp hb]
    exact .intro hint fun c hc => absurd hc List.not_mem_nil
  refine ⟨hfounded, fun s v t hzero => ?_⟩
  have hlarge : vast.TooLarge [some ⟨1⟩] := tooLarge_singleton.mpr (.array harray (by decide))
  obtain ⟨u, hu⟩ := (makes_zero_some hfounded).error hlarge s
  rw [hzero] at hu
  cases hu

/-- Two variables are declared, and a struct is made whose first field is not written. The type of
the variables refers to later types. -/
def declaring : Graph where
  globals := 3
  types := #[.array ⟨1⟩ 2, .struct [("x", ⟨2⟩), ("y", ⟨3⟩)], .int, .slice ⟨2⟩,
    .struct [("pair", ⟨0⟩), ("rank", ⟨2⟩)]]
  nodes := #[
    { kind := .assignZero, children := [⟨1⟩, ⟨2⟩, ⟨3⟩], type := some ⟨0⟩, next := some ⟨4⟩ },
    { kind := .ident, slot := some 0 },
    { kind := .ident, slot := some 1 },
    { kind := .typeExpr, type := some ⟨0⟩ },
    { kind := .keyedLit, children := [⟨5⟩, ⟨6⟩], slot := some 2 },
    { kind := .typeExpr, type := some ⟨4⟩ },
    { kind := .keyValue, children := [⟨7⟩, ⟨7⟩], payload := some (.field 1) },
    { kind := .basicLit, payload := some (.literal (.int 7)) }]

lemma type?_declaring : declaring.type? ⟨0⟩ = some (.array ⟨1⟩ 2) ∧
    declaring.type? ⟨1⟩ = some (.struct [("x", ⟨2⟩), ("y", ⟨3⟩)]) ∧
    declaring.type? ⟨2⟩ = some .int ∧ declaring.type? ⟨3⟩ = some (.slice ⟨2⟩) ∧
    declaring.type? ⟨4⟩ = some (.struct [("pair", ⟨0⟩), ("rank", ⟨2⟩)]) :=
  ⟨rfl, rfl, rfl, rfl, rfl⟩

lemma founded_declaring : declaring.Founded ⟨0⟩ ∧ declaring.Founded ⟨4⟩ := by
  obtain ⟨hpair, hpoint, hint, hslice, hrecord⟩ := type?_declaring
  have hleaf : declaring.Founded ⟨2⟩ := .intro hint fun b hb => absurd hb List.not_mem_nil
  have hpoints : declaring.Founded ⟨0⟩ := by
    refine .intro hpair fun b hb => ?_
    rw [List.mem_singleton.mp hb]
    refine .intro hpoint (List.forall_mem_cons.mpr ⟨hleaf, List.forall_mem_singleton.mpr ?_⟩)
    exact .intro hslice fun b hb => absurd hb List.not_mem_nil
  refine ⟨hpoints, .intro hrecord ?_⟩
  exact List.forall_mem_cons.mpr ⟨hpoints, List.forall_mem_singleton.mpr hleaf⟩

lemma not_oversized_declaring (a : TypeId) : ¬declaring.Oversized a := by
  refine not_oversized (fun ty hty elem length he => ?_) a
  subst he
  simp only [declaring, List.mem_toArray, List.mem_cons, reduceCtorEq, Ty.array.injEq,
    List.not_mem_nil, or_false] at hty
  rw [hty.2]
  decide

end Graph

open Flowgraph.Graph

/-- The program, as it is loaded. -/
def declaringProgram : Program where
  graph := declaring
  constants := #[none, none, none, none, none, none, none, some (.int 7)]
  natives := .empty
  config := {}

/-- Two variables that are declared together, and a struct that is made, share nothing. -/
theorem Machine.zeros_apart_declaring : ∃ start,
    Machine.load declaring .empty {} true = .ok start ∧
    (∃ (vs : List Value) (t u : Store),
      start.program.assignZero globalFrame ⟨0⟩ start.store = .ok () u ∧
      t.Stored [some (globalFrame, 0), some (globalFrame, 1)] vs u ∧
      declaring.ZerosApart start.store u [some ⟨0⟩, some ⟨0⟩] vs) ∧
    ∃ (b : BlockId) (vs : List Value) (t : Store),
      start.program.keyedLit globalFrame ⟨4⟩ start.store =
        start.program.setOwn globalFrame ⟨4⟩ (.struct b) t ∧
      (t.block b)[0]? = vs[0]? ∧
      declaring.Filled start.store t b [.int 7] [some ⟨0⟩, some ⟨2⟩] vs := by
  have hload : Machine.load declaring .empty {} true =
      .ok (.ofProgram declaringProgram true) := rfl
  have happly := Machine.zeros_apart (fun _ he => absurd he List.not_mem_nil) hload .start
  refine ⟨_, hload, ?_, ?_⟩
  · have hsites : List.Forall₂ (declaringProgram.Targets
        (Machine.ofProgram declaringProgram true).store globalFrame) [⟨1⟩, ⟨2⟩]
        [some (globalFrame, 0), some (globalFrame, 1)] :=
      .cons (.slot rfl rfl rfl (by decide)) (.cons (.slot rfl rfl rfl (by decide)) .nil)
    have hfit : ¬declaring.TooLarge [some ⟨0⟩, some ⟨0⟩] := fun ⟨a, _, hlarge⟩ =>
      not_oversized_declaring a hlarge
    obtain ⟨vs, t, u, happ, -, hstored, hzeros⟩ := (happly.assignZero globalFrame ⟨0⟩ _ _ rfl hsites
      fun a ha => Option.some.inj ha ▸ founded_declaring.1).1 hfit
    exact ⟨vs, t, u, happ, hstored, hzeros⟩
  · have hkeyed : List.Forall₂ (declaringProgram.Keyed
        (Machine.ofProgram declaringProgram true).store globalFrame 2) [⟨6⟩] [(1, .int 7)] :=
      .cons ⟨_, 1, rfl, rfl, rfl, rfl⟩ .nil
    obtain ⟨b, vs, t, happ, -, hunkeyed, hfilled⟩ := (happly.keyedLit globalFrame ⟨4⟩ _ ⟨4⟩ _ _ rfl
      rfl rfl founded_declaring.2 hkeyed).1 (not_oversized_declaring _)
    exact ⟨b, vs, t, happ, hunkeyed 0 (by decide), hfilled⟩

end Flowgraph
