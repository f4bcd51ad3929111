import Mathlib.Data.List.Induction
import Mathlib.Tactic.Common
import Flowgraph.Graph.Basic

/-!
# What edits need and what they change

An edit changes certain nodes that have to be there. If one of them is missing it fails, and
reports the first such; otherwise it leaves all other nodes as they are. A node becomes the parent
of its children when it is added, and no other edit changes parents or children. So edits build a
graph just if each finds what it needs among the nodes that were added before.
-/

namespace Flowgraph

namespace Graph

variable {g g₁ g' : Graph} {a b c id : NodeId} {ids : List NodeId} {n : Node} {f : Node → Node}
  {e : Edit} {es : List Edit} {x : OutOfTable}

/-! ### Children and parents -/

/-- The place of a node in the tree: its children and its parent. -/
def kin? (g : Graph) (c : NodeId) : Option (List NodeId × Option NodeId) :=
  (g.node? c).map fun n => (n.children, n.parent)

/-- A node lists another one as a child. -/
def Lists (g : Graph) (a c : NodeId) : Prop := ∃ n, g.node? a = some n ∧ c ∈ n.children

lemma lists_iff : g.Lists a c ↔ ∃ cs parent, g.kin? a = some (cs, parent) ∧ c ∈ cs := by
  constructor
  · rintro ⟨n, hn, hc⟩
    exact ⟨n.children, n.parent, by rw [kin?, hn]; rfl, hc⟩
  · rintro ⟨cs, parent, hkin, hc⟩
    obtain ⟨n, hn, he⟩ := Option.map_eq_some_iff.mp hkin
    cases he
    exact ⟨n, hn, hc⟩

/-! ### What edits do to the tree -/

/-- Only a node that is there can be changed. -/
lemma update_ok (h : g.update id f = .ok g') :
    id.index < g.nodes.size ∧ g'.nodes.size = g.nodes.size := by
  rw [update] at h
  split_ifs at h with hlt
  cases h
  exact ⟨hlt, Array.size_modify⟩

lemma node?_update (h : g.update id f = .ok g') (c : NodeId) :
    g'.node? c = if c = id then (g.node? c).map f else g.node? c := by
  rw [update] at h
  split_ifs at h with hlt
  cases h
  simp only [node?, Array.getElem?_modify]
  by_cases hc : c = id
  · rw [if_pos (congrArg NodeId.index hc.symm), if_pos hc]
  · rw [if_neg fun he => hc (by cases c; cases id; simp_all), if_neg hc]

lemma kin?_update (h : g.update id f = .ok g') (hf : ∀ n, (f n).children = n.children)
    (hp : ∀ n, (f n).parent = n.parent) (c : NodeId) : g'.kin? c = g.kin? c := by
  rw [kin?, node?_update h, kin?]
  split_ifs
  · rw [Option.map_map]
    exact congrArg (Option.map · (g.node? c)) (funext fun n => Prod.ext (hf n) (hp n))
  · rfl

/-- Only nodes that are there can be adopted. They get a parent, and nothing else changes in the
tree. -/
lemma kin?_adopt (h : g.adopt id ids = .ok g') : g'.nodes.size = g.nodes.size ∧
    (∀ c ∈ ids, (g.kin? c).isSome) ∧
    ∀ c, g'.kin? c = (g.kin? c).map fun k => (k.1, if c ∈ ids then some id else k.2) := by
  induction ids generalizing g with
  | nil =>
    cases h
    simp
  | cons a rest ih =>
    cases hu : g.update a fun n => { n with parent := some id } with
    | error e =>
      rw [adopt, hu] at h
      cases h
    | ok g₁ =>
      rw [adopt, hu] at h
      obtain ⟨hsize, hthere, hkin⟩ := ih h
      have hone : ∀ c, g₁.kin? c =
          (g.kin? c).map fun k => (k.1, if c = a then some id else k.2) := by
        intro c
        rw [kin?, node?_update hu, kin?]
        split_ifs <;> cases g.node? c <;> rfl
      have hsame : ∀ c, (g₁.kin? c).isSome = (g.kin? c).isSome := fun c => by
        rw [hone, Option.isSome_map]
      obtain ⟨ha, hsize₁⟩ := update_ok hu
      refine ⟨hsize.trans hsize₁, fun c hc => ?_, fun c => ?_⟩
      · rcases List.mem_cons.mp hc with rfl | hc
        · rw [kin?, Option.isSome_map, node?, Array.getElem?_eq_getElem ha]
          rfl
        · exact hsame c ▸ hthere c hc
      · rw [hkin, hone, Option.map_map]
        refine congrArg (Option.map · (g.kin? c)) (funext fun k => ?_)
        by_cases hc : c ∈ rest <;> by_cases hca : c = a <;> simp [hc, hca]

/-- A node is added under the next number. Its children were there, and get it as their parent. -/
lemma kin?_addNode (he : g.edit (.addNode n) = .ok g') :
    g'.nodes.size = g.nodes.size + 1 ∧ (∀ c ∈ n.children, c.index < g.nodes.size) ∧
    ∀ c, g'.kin? c = if c.index = g.nodes.size then some (n.children, n.parent)
      else (g.kin? c).map fun k => (k.1, if c ∈ n.children then some ⟨g.nodes.size⟩ else k.2) := by
  cases hadopt : g.adopt ⟨g.nodes.size⟩ n.children with
  | error e =>
    rw [Graph.edit, hadopt] at he
    cases he
  | ok g₁ =>
    rw [Graph.edit, hadopt] at he
    cases he
    obtain ⟨hsize, hthere, hkin⟩ := kin?_adopt hadopt
    refine ⟨by rw [Array.size_push, hsize], fun c hc => ?_, fun c => ?_⟩
    · obtain ⟨k, hk⟩ := Option.isSome_iff_exists.mp (hthere c hc)
      obtain ⟨m, hm, -⟩ := Option.map_eq_some_iff.mp hk
      exact (Array.getElem?_eq_some_iff.mp hm).1
    · rw [← hkin, kin?, node?, Array.getElem?_push, hsize]
      split_ifs <;> rfl

/-! ### Missing nodes -/

/-- The nodes that an edit changes. -/
def Edit.touched : Edit → List NodeId
  | .addType _ => []
  | .addNode n => n.children
  | .link source _ => [source]
  | .branch source _ _ => [source]
  | .chain ids => ids.dropLast
  | .define decl _ => [decl]
  | .setGlobals _ => []

/-- The node that an edit adds, if it adds one. -/
def Edit.added : Edit → List Node
  | .addNode n => [n]
  | _ => []

/-- The nodes that edits add, in this order. -/
def added (es : List Edit) : List Node := es.flatMap Edit.added

@[simp] lemma added_nil : added [] = [] := rfl

@[simp] lemma added_append (es es' : List Edit) : added (es ++ es') = added es ++ added es' :=
  List.flatMap_append

@[simp] lemma added_singleton (e : Edit) : added [e] = e.added := by simp [added]

/-- The access to the first of some nodes that is not there. -/
def refusal? (g : Graph) : List NodeId → Option OutOfTable
  | [] => none
  | c :: cs => if c.index < g.nodes.size then g.refusal? cs else some ⟨c.index, g.nodes.size⟩

lemma refusal?_congr (hsize : g₁.nodes.size = g.nodes.size) (ids : List NodeId) :
    g₁.refusal? ids = g.refusal? ids := by
  induction ids with
  | nil => rfl
  | cons c cs ih => rw [refusal?, refusal?, hsize, ih]

lemma refusal?_eq_none : g.refusal? ids = none ↔ ∀ c ∈ ids, c.index < g.nodes.size := by
  induction ids with
  | nil => simp [refusal?]
  | cons c cs ih =>
    rw [refusal?, List.forall_mem_cons]
    split_ifs with hc
    · rw [ih, and_iff_right hc]
    · simp [hc]

/-- A change to a node fails at this node, or later at what the rest needs. -/
lemma update_bind_error {k : Graph → Except OutOfTable Graph}
    (hk : ∀ g₁, g₁.nodes.size = g.nodes.size → (k g₁ = .error x ↔ g₁.refusal? ids = some x)) :
    g.update a f >>= k = .error x ↔ g.refusal? (a :: ids) = some x := by
  cases hu : g.update a f with
  | error y =>
    rw [update] at hu
    split_ifs at hu with ha
    cases hu
    rw [refusal?, if_neg ha, Option.some_inj]
    exact ⟨fun h => Except.error.inj h, congrArg Except.error⟩
  | ok g₁ =>
    obtain ⟨ha, hsize⟩ := update_ok hu
    rw [refusal?, if_pos ha, ← refusal?_congr hsize]
    exact hk g₁ hsize

lemma update_error : g.update a f = .error x ↔ g.refusal? [a] = some x := by
  have h : g.update a f >>= Except.ok = .error x ↔ g.refusal? [a] = some x :=
    update_bind_error fun g₁ _ => by simp [refusal?]
  rwa [show g.update a f >>= Except.ok = g.update a f from bind_pure _] at h

lemma adopt_error : g.adopt id ids = .error x ↔ g.refusal? ids = some x := by
  induction ids generalizing g with
  | nil => simp [adopt, refusal?]
  | cons c cs ih => exact update_bind_error fun g₁ _ => ih

lemma linkAll_error : g.linkAll ids = .error x ↔ g.refusal? ids.dropLast = some x := by
  induction ids generalizing g with
  | nil => simp [linkAll, refusal?]
  | cons a rest ih =>
    cases rest with
    | nil => simp [linkAll, refusal?]
    | cons b rest => exact update_bind_error fun g₁ _ => ih

/-- An edit fails just at the first node that it changes and that is not there. -/
theorem edit_error : g.edit e = .error x ↔ g.refusal? e.touched = some x := by
  cases e with
  | addType t => simp [edit, Edit.touched, refusal?]
  | addNode n =>
    have hadopt : g.adopt ⟨g.nodes.size⟩ n.children = .error x ↔ _ := adopt_error
    rw [Edit.touched, ← hadopt, edit]
    cases g.adopt ⟨g.nodes.size⟩ n.children with
    | error y => exact Iff.rfl
    | ok g₁ => constructor <;> intro h <;> cases h
  | link source target => exact update_error
  | branch source whenTrue whenFalse => exact update_error
  | chain ids => exact linkAll_error
  | define decl d => exact update_error
  | setGlobals size => simp [edit, Edit.touched, refusal?]

/-- An edit fails just if a node that it changes is not there. -/
theorem edit_fails : (∃ x, g.edit e = .error x) ↔ ∃ c ∈ e.touched, g.nodes.size ≤ c.index := by
  simp only [edit_error, ← Option.isSome_iff_exists, ← Option.ne_none_iff_isSome, ne_eq,
    refusal?_eq_none, not_forall, exists_prop, Nat.not_lt]

theorem edit_succeeds : (∃ g', g.edit e = .ok g') ↔ ∀ c ∈ e.touched, c.index < g.nodes.size := by
  rw [← refusal?_eq_none, Option.eq_none_iff_forall_ne_some]
  simp only [ne_eq, ← edit_error]
  cases g.edit e <;> simp

/-! ### What stays -/

/-- Of the nodes of `g`, only the listed ones are changed in `g'`, and of these neither children nor
parents. -/
structure Patches (ids : List NodeId) (g g' : Graph) : Prop where
  size : g'.nodes.size = g.nodes.size
  kin : ∀ c, g'.kin? c = g.kin? c
  other : ∀ c, c ∉ ids → g'.node? c = g.node? c

namespace Patches

lemma of_nodes (h : g'.nodes = g.nodes) : Patches ids g g' where
  size := by rw [h]
  kin _ := by rw [kin?, kin?, node?, node?, h]
  other _ _ := by rw [node?, node?, h]

lemma update (h : g.update id f = .ok g') (hf : ∀ n, (f n).children = n.children)
    (hp : ∀ n, (f n).parent = n.parent) : Patches [id] g g' where
  size := (update_ok h).2
  kin := kin?_update h hf hp
  other c hc := (node?_update h c).trans (if_neg fun he => hc (List.mem_singleton.mpr he))

lemma cons (h : Patches [a] g g₁) (h' : Patches ids g₁ g') : Patches (a :: ids) g g' where
  size := h'.size.trans h.size
  kin c := (h'.kin c).trans (h.kin c)
  other c hc := by
    rw [List.mem_cons, not_or] at hc
    exact (h'.other c hc.2).trans (h.other c (hc.1 ∘ List.mem_singleton.mp))

lemma linkAll (h : g.linkAll ids = .ok g') : Patches ids.dropLast g g' := by
  induction ids generalizing g with
  | nil =>
    cases h
    exact of_nodes rfl
  | cons a rest ih =>
    cases rest with
    | nil =>
      cases h
      exact of_nodes rfl
    | cons b rest =>
      cases hu : g.update a fun n => { n with next := some b } with
      | error x =>
        rw [Graph.linkAll, hu] at h
        cases h
      | ok g₁ =>
        rw [Graph.linkAll, hu] at h
        exact (update hu (fun _ => rfl) fun _ => rfl).cons (ih h)

end Patches

/-- An edit that adds no node patches the nodes that it names. -/
theorem patches_of_edit (hadds : e.added = []) (h : g.edit e = .ok g') :
    Patches e.touched g g' := by
  cases e with
  | addType t =>
    cases h
    exact .of_nodes rfl
  | addNode n => cases hadds
  | link source target => exact .update h (fun _ => rfl) fun _ => rfl
  | branch source whenTrue whenFalse => exact .update h (fun _ => rfl) fun _ => rfl
  | chain ids => exact .linkAll h
  | define decl d => exact .update h (fun _ => rfl) fun _ => rfl
  | setGlobals size =>
    cases h
    exact .of_nodes rfl

/-! ### Runs of edits -/

lemma size_edit (h : g.edit e = .ok g') : g'.nodes.size = g.nodes.size + e.added.length := by
  cases e with
  | addNode n => exact (kin?_addNode h).1
  | addType | link | branch | chain | define | setGlobals => exact (patches_of_edit rfl h).size

lemma build_append : build (es ++ [e]) = build es >>= fun g => g.edit e := by
  rw [build, edits, List.foldlM_append]
  simp [build, edits]

lemma of_build_append (h : build (es ++ [e]) = .ok g) :
    ∃ g₁, build es = .ok g₁ ∧ g₁.edit e = .ok g := by
  rw [build_append] at h
  cases hb : build es with
  | error x =>
    rw [hb] at h
    cases h
  | ok g₁ =>
    rw [hb] at h
    exact ⟨g₁, rfl, h⟩

/-- Nodes are numbered in the order in which they were added. -/
lemma size_of_build (h : build es = .ok g) : g.nodes.size = (added es).length := by
  induction es using List.reverseRecOn generalizing g with
  | nil =>
    cases h
    rfl
  | append_singleton es e ih =>
    obtain ⟨g₁, hb, he⟩ := of_build_append h
    rw [size_edit he, ih hb, added_append, added_singleton, List.length_append]

/-- Edits build a graph just if each of them only changes nodes that were added before it. -/
theorem build_succeeds : (∃ g, build es = .ok g) ↔ ∀ before e after,
    es = before ++ e :: after → ∀ c ∈ e.touched, c.index < (added before).length := by
  constructor
  · rintro ⟨g, h⟩ before e after rfl
    rw [List.append_cons, build, edits, List.foldlM_append] at h
    -- the edits up to `e` succeed, since all of them do
    cases hb : build (before ++ [e]) with
    | error x =>
      rw [build, edits] at hb
      rw [hb] at h
      cases h
    | ok g' =>
      obtain ⟨g₁, hbefore, he⟩ := of_build_append hb
      exact size_of_build hbefore ▸ edit_succeeds.mp ⟨g', he⟩
  · intro hall
    induction es using List.reverseRecOn with
    | nil => exact ⟨{}, rfl⟩
    | append_singleton es e ih =>
      obtain ⟨g, hg⟩ := ih fun before e' after hes => hall before e' (after ++ [e]) (by simp [hes])
      rw [build_append, hg]
      exact edit_succeeds.mpr (size_of_build hg ▸ hall es e [] rfl)

end Graph

end Flowgraph
