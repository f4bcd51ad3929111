import Flowgraph.Proofs.Equality
import Flowgraph.Proofs.Literals.Agreement
import Flowgraph.Proofs.Loops.Keys
import Flowgraph.Proofs.Output.Lines
import Flowgraph.Proofs.Printing.Depth

/-!
# Texts show contents only

The entries of a dictionary are printed in the order of their texts. So what is printed of a value
depends on the contents of what it is made of, at any depth, and neither on names nor on the order
in which dictionaries were filled.
-/

namespace Flowgraph

/-! ### Texts in order -/

/-- Texts that are sorted do not show the order they had before. -/
lemma joinSorted_perm {xs ys : List String} (h : xs.Perm ys) :
    Store.joinSorted xs = Store.joinSorted ys := by
  have hsorted : ∀ zs : List String,
      (zs.mergeSort fun a b => decide (a ≤ b)).Pairwise fun a b => decide (a ≤ b) = true := by
    refine fun zs => List.pairwise_mergeSort (fun a b c hab hbc => ?_) (fun a b => ?_) zs
    · exact decide_eq_true (String.le_trans (of_decide_eq_true hab) (of_decide_eq_true hbc))
    · simpa using String.le_total a b
  have hperm : (xs.mergeSort fun a b => decide (a ≤ b)).Perm
      (ys.mergeSort fun a b => decide (a ≤ b)) :=
    (List.mergeSort_perm xs _).trans (h.trans (List.mergeSort_perm ys _).symm)
  rw [Store.joinSorted, Store.joinSorted]
  refine congrArg _ (hperm.eq_of_pairwise (fun a b _ _ hab hba => ?_) (hsorted xs) (hsorted ys))
  exact String.le_antisymm (of_decide_eq_true hab) (of_decide_eq_true hba)

lemma map_eq_of_forall₂ {α β γ : Type} {f : α → γ} {g : β → γ} {as : List α} {bs : List β}
    (h : List.Forall₂ (fun a b => f a = g b) as bs) : as.map f = bs.map g := by
  rw [← List.forall₂_eq_eq_eq, List.forall₂_map_left_iff, List.forall₂_map_right_iff]
  exact h

/-! ### Contents of two stores -/

/-- A value that is printed the same in all stores. -/
def Value.isScalar : Value → Bool
  | nil | bool _ | int _ | float _ | str _ | native _ => true
  | _ => false

/-! ### Dictionaries that are filled entry by entry -/

namespace Dict

variable {es : List (Value × Value)}

/-- The dictionary that is filled by insertions, one after the other. -/
def ofEntries (es : List (Value × Value)) : Dict :=
  es.foldl (fun D e => D.insert e.1 e.2) {}

lemma ofEntries_of_proper (h : (⟨es⟩ : Dict).Proper) : ofEntries es = ⟨es⟩ := by
  simp only [Proper] at h
  induction es using List.reverseRecOn with
  | nil => rfl
  | append_singleton es e ih =>
    obtain ⟨hes, -, hlast⟩ := List.pairwise_append.mp h
    rw [ofEntries, List.foldl_append, ← ofEntries, ih hes]
    exact insert_of_absent fun a ha => hlast a ha e (List.mem_singleton.mpr rfl)

lemma Proper.perm {D : Dict} (h : D.Proper) (hes : es.Perm D.entries) : (⟨es⟩ : Dict).Proper :=
  hes.symm.pairwise h fun hab => BEq.symm_false hab

end Dict

namespace Store

variable {s t : Store} {R : Value → Value → Prop} {v w : Value} {n : Nat}

lemma parts_of_isScalar (h : v.isScalar = true) : s.parts v = [] := by
  cases v <;> first | rfl | cases h

/-- A value in the first store looks like one in the second store, if their parts are related:
scalars are equal, elements correspond one to one, and so do the entries of dictionaries in some
order. Blocks, dictionaries and frames may have different names. -/
inductive Resembles (s t : Store) (R : Value → Value → Prop) : Value → Value → Prop
  | scalar {v : Value} (h : v.isScalar = true) : Resembles s t R v v
  | slice {b c : BlockId} (h : List.Forall₂ R (s.block b).toList (t.block c).toList) :
      Resembles s t R (.slice b) (.slice c)
  | struct {b c : BlockId} (h : List.Forall₂ R (s.block b).toList (t.block c).toList) :
      Resembles s t R (.struct b) (.struct c)
  | pointer {b c : BlockId} {i j : Nat} (h : Option.Rel R (s.target? b i) (t.target? c j)) :
      Resembles s t R (.pointer b i) (.pointer c j)
  | map {d e : DictId} {es : List (Value × Value)} (hes : es.Perm (t.dict e).entries)
      (h : List.Forall₂ (fun a b => R a.1 b.1 ∧ R a.2 b.2) (s.dict d).entries es) :
      Resembles s t R (.map d) (.map e)
  | chan {c d : ChannelId} (h : (s.channel c).capacity = (t.channel d).capacity) :
      Resembles s t R (.chan c) (.chan d)
  | func {decl : NodeId} {env env' : Option FrameId} :
      Resembles s t R (.func decl env) (.func decl env')

/-- Values that are related have the same contents. -/
def Matching (s t : Store) (R : Value → Value → Prop) : Prop :=
  ∀ v w, R v w → Resembles s t R v w

/-- Values that look alike have the same text, if their parts have. -/
lemma Resembles.renderTo_succ {m : Nat} (h : Resembles s t R v w)
    (hR : ∀ v w, R v w → s.renderTo m v = t.renderTo n w) :
    s.renderTo (m + 1) v = t.renderTo (n + 1) w := by
  cases h with
  | @scalar v hv => cases v <;> first | rfl | cases hv
  | slice h | struct h =>
    have hmap := map_eq_of_forall₂ (h.imp hR)
    simp only [renderTo, hmap]
  | @pointer b c i j h =>
    simp only [renderTo]
    generalize s.target? b i = target, t.target? c j = target' at h ⊢
    cases h with
    | some h => exact congrArg ("&" ++ ·) (hR _ _ h)
    | none => rfl
  | @map d e es hes h =>
    have hmap : ((s.dict d).entries.map fun a => s.renderTo m a.1 ++ ":" ++ s.renderTo m a.2) =
        es.map fun b => t.renderTo n b.1 ++ ":" ++ t.renderTo n b.2 :=
      map_eq_of_forall₂ (h.imp fun a b hab => by rw [hR _ _ hab.1, hR _ _ hab.2])
    simp only [renderTo, hmap, joinSorted_perm (hes.map _)]
  | chan h => simp only [renderTo, h]
  | func => rfl

/-- To any depth, related values have the same text. -/
lemma Matching.renderTo (hm : s.Matching t R) (h : R v w) (n : Nat) :
    s.renderTo n v = t.renderTo n w := by
  induction n generalizing v w with
  | zero => rfl
  | succ n ih => exact (hm v w h).renderTo_succ fun _ _ => ih

/-- Each part of the second value has a counterpart among those of the first one. -/
lemma Resembles.exists_part {u : Value} (h : Resembles s t R v w) (hu : t.Part w u) :
    ∃ u', s.Part v u' ∧ R u' u := by
  cases h with
  | scalar hv =>
    rw [Part, parts_of_isScalar hv] at hu
    cases hu
  | slice h | struct h => exact exists_mem_of_forall₂ h.flip hu
  | pointer h =>
    obtain hu : t.target? _ _ = some u := Option.mem_toList.mp hu
    rw [hu] at h
    generalize hv : s.target? _ _ = target at h
    obtain h | _ := h
    exact ⟨_, Option.mem_toList.mpr hv, h⟩
  | map hes h =>
    obtain ⟨e, he, hue⟩ := List.mem_flatMap.mp hu
    obtain ⟨e', he', hkey, hvalue⟩ := exists_mem_of_forall₂ h.flip (hes.mem_iff.mpr he)
    simp only [List.mem_cons, List.not_mem_nil, or_false] at hue
    rcases hue with rfl | rfl
    · exact ⟨e'.1, List.mem_flatMap.mpr ⟨e', he', by simp⟩, hkey⟩
    · exact ⟨e'.2, List.mem_flatMap.mpr ⟨e', he', by simp⟩, hvalue⟩
  | chan h => cases hu
  | func => cases hu

/-- Related values are nested equally deep. -/
lemma Matching.shallow (hm : s.Matching t R) (h : R v w) (hv : s.Shallow n v) : t.Shallow n w := by
  induction n generalizing v w with
  | zero => exact hv
  | succ n ih =>
    intro u hu
    obtain ⟨u', hu', hrel⟩ := (hm v w h).exists_part hu
    exact ih hrel (hv u' hu')

/-! ### Dictionaries in another order -/

/-- The second store has the contents of the first one, but the entries of dictionaries may be in
any other order. -/
structure Reordered (s t : Store) : Prop where
  block : ∀ b, t.block b = s.block b
  capacity : ∀ c, (t.channel c).capacity = (s.channel c).capacity
  entries : ∀ d, (s.dict d).entries.Perm (t.dict d).entries

/-- Nothing is reordered. -/
lemma Reordered.refl (s : Store) : s.Reordered s := ⟨fun _ => rfl, fun _ => rfl, fun _ => .refl _⟩

lemma Reordered.resembles (h : s.Reordered t) (hparts : ∀ w, s.Part v w → R w w) :
    Resembles s t R v v := by
  cases v with
  | slice b =>
    refine .slice ?_
    rw [h.block]
    exact List.forall₂_same.mpr hparts
  | struct b =>
    refine .struct ?_
    rw [h.block]
    exact List.forall₂_same.mpr hparts
  | pointer b i =>
    have hsame : t.target? b i = s.target? b i := by rw [target?, target?, h.block]
    refine .pointer ?_
    rw [hsame]
    cases htarget : s.target? b i with
    | none => exact .none
    | some u => exact .some (hparts u (Option.mem_toList.mpr htarget))
  | map d =>
    refine .map (h.entries d) (List.forall₂_same.mpr fun e he => ⟨hparts _ ?_, hparts _ ?_⟩)
    · exact List.mem_flatMap.mpr ⟨e, he, by simp⟩
    · exact List.mem_flatMap.mpr ⟨e, he, by simp⟩
  | chan c => exact .chan (h.capacity c).symm
  | func decl env => exact .func
  | _ => exact .scalar rfl

lemma Reordered.matching (h : s.Reordered t) : s.Matching t Eq := by
  rintro v _ rfl
  exact h.resembles fun _ _ => rfl

/-- Once the depth suffices, the text does not depend on it. -/
lemma Shallow.renderTo_eq {m : Nat} (h : s.Shallow n v) (hle : n ≤ m) :
    s.renderTo m v = s.renderTo n v := by
  induction n generalizing v m with
  | zero => exact h.elim
  | succ n ih =>
    obtain ⟨m, rfl⟩ := Nat.exists_eq_add_of_lt hle
    have hsame : Resembles s s (fun w u => w = u ∧ s.Part v w) v v :=
      (Reordered.refl s).resembles fun w hw => ⟨rfl, hw⟩
    refine hsame.renderTo_succ ?_
    rintro w _ ⟨rfl, hw⟩
    exact ih (h w hw) (by omega)

/-- Values with the same contents have the same text. -/
theorem Matching.render (hm : s.Matching t R) (h : R v w) (hv : s.Acyclic v) :
    s.render v = t.render w := by
  -- The stores may differ in their numbers of places, so the texts meet at a depth that suffices
  -- for both of them.
  have hw : t.Acyclic w := (hm.shallow h hv.shallow).acyclic
  calc s.render v = s.renderTo (s.places + 1) v := render_eq_renderTo s v
    _ = s.renderTo (max s.places t.places + 1) v := (hv.shallow.renderTo_eq (by omega)).symm
    _ = t.renderTo (max s.places t.places + 1) w := hm.renderTo h _
    _ = t.renderTo (t.places + 1) w := hw.shallow.renderTo_eq (by omega)
    _ = t.render w := (render_eq_renderTo t w).symm

/-! ### Dictionaries that are filled in another order -/

/-- The second store has the contents of the first one, but each dictionary has been filled anew, by
insertions of the entries in any order. -/
structure Rebuilt (s t : Store) : Prop where
  block : ∀ b, t.block b = s.block b
  capacity : ∀ c, (t.channel c).capacity = (s.channel c).capacity
  filled : ∀ d, ∃ es, es.Perm (s.dict d).entries ∧ t.dict d = .ofEntries es

lemma Rebuilt.reordered (h : s.Rebuilt t) (hbuilt : ∀ d, (s.dict d).Built) : s.Reordered t where
  block := h.block
  capacity := h.capacity
  entries d := by
    obtain ⟨es, hes, hd⟩ := h.filled d
    rw [hd, Dict.ofEntries_of_proper ((hbuilt d).proper.perm hes)]
    exact hes.symm

end Store

/-! ### What is printed -/

/-- What is printed of values in one store, and of values in another one, is the same. -/
structure PrintedAlike (s t : Store) (vs ws : List Value) : Prop where
  /-- Values have the texts of their counterparts. -/
  text : List.Forall₂ (fun v w => s.render v = t.render w) vs ws
  /-- Nodes that print the values write the same line. -/
  println : ∀ (p q : Program) (f g : FrameId) (id id' : NodeId) (n n' : Node),
    p.node id = .ok n → n.kind = .println → p.allValues f (n.children.drop 1) s = .ok vs →
    q.node id' = .ok n' → n'.kind = .println → q.allValues g (n'.children.drop 1) t = .ok ws →
    ∃ line, p.perform f id s = .ok .done (s.writeLine line) ∧
      q.perform g id' t = .ok .done (t.writeLine line)
  /-- So does the native that prints a line. -/
  printLine : ∀ config config', ∃ line, Native.printLine config s vs = .print line [] ∧
    Native.printLine config' t ws = .print line []
  /-- The native that prints into a text has the same result. -/
  sprint : ∀ config config', ∃ text, Native.sprint config s vs = .results [.str text] ∧
    Native.sprint config' t ws = .results [.str text]

lemma Store.Resembles.isText_eq {s t : Store} {R : Value → Value → Prop} {v w : Value}
    (h : Store.Resembles s t R v w) : Native.isText v = Native.isText w := by
  cases h <;> rfl

section Lists

variable {s t : Store} {vs ws : List Value}

lemma renderLine_eq (h : List.Forall₂ (fun v w => s.render v = t.render w) vs ws) :
    s.renderLine vs = t.renderLine ws := by
  rw [Store.renderLine, Store.renderLine, map_eq_of_forall₂ h]

lemma joinLoosely_eq (h : List.Forall₂ (fun v w => s.render v = t.render w ∧
    Native.isText v = Native.isText w) vs ws) :
    Native.joinLoosely s vs = Native.joinLoosely t ws := by
  induction h with
  | nil => rfl
  | cons hfirst hrest ih =>
    cases hrest with
    | nil => exact hfirst.1
    | cons hsecond _ =>
      rw [Native.joinLoosely, Native.joinLoosely, ih, hfirst.1, hfirst.2, hsecond.2]

lemma printedAlike (h : List.Forall₂ (fun v w => s.render v = t.render w ∧
    Native.isText v = Native.isText w) vs ws) : PrintedAlike s t vs ws where
  text := h.imp fun _ _ => And.left
  println p q f g id id' n n' hn hk hvs hn' hk' hws := by
    refine ⟨s.renderLine vs, Program.perform_println hn hk hvs, ?_⟩
    rw [renderLine_eq (h.imp fun _ _ => And.left)]
    exact Program.perform_println hn' hk' hws
  printLine config config' := by
    refine ⟨s.renderLine vs, rfl, ?_⟩
    rw [renderLine_eq (h.imp fun _ _ => And.left)]
    rfl
  sprint config config' := by
    refine ⟨Native.joinLoosely s vs, rfl, ?_⟩
    rw [joinLoosely_eq h]
    rfl

lemma Store.Matching.printedAlike {R : Value → Value → Prop} (hm : s.Matching t R)
    (h : List.Forall₂ R vs ws) (hvs : ∀ v ∈ vs, s.Acyclic v) : PrintedAlike s t vs ws := by
  refine Flowgraph.printedAlike ?_
  induction h with
  | nil => exact .nil
  | cons hfirst _ ih =>
    obtain ⟨hacyclic, hrest⟩ := List.forall_mem_cons.mp hvs
    exact .cons ⟨hm.render hfirst hacyclic, (hm _ _ hfirst).isText_eq⟩ (ih hrest)

end Lists

/-- What is printed of values without cycles is determined by their contents. In particular it does
not depend on the order in which dictionaries, at whatever depth, keep their entries, or in which
they were filled. -/
theorem text_of_contents :
    (∀ (s t : Store) (R : Value → Value → Prop) (vs ws : List Value), s.Matching t R →
      List.Forall₂ R vs ws → (∀ v ∈ vs, s.Acyclic v) → PrintedAlike s t vs ws) ∧
    ∀ (s t : Store) (vs : List Value), (∀ v ∈ vs, s.Acyclic v) →
      (s.Reordered t ∨ (∀ d, (s.dict d).Built) ∧ s.Rebuilt t) → PrintedAlike s t vs vs := by
  refine ⟨fun s t R vs ws hm h hvs => hm.printedAlike h hvs, fun s t vs hvs h => ?_⟩
  have hreordered : s.Reordered t := h.elim id fun ⟨hbuilt, h⟩ => h.reordered hbuilt
  exact hreordered.matching.printedAlike (List.forall₂_same.mpr fun _ _ => rfl) hvs

/-- Two entries have the same text, and a third one leads to another dictionary. -/
def filling : Store where
  dicts := #[⟨[(.int 1, .int 2), (.str "1", .int 2), (.map ⟨1⟩, .nil)]⟩,
    ⟨[(.int 3, .nil), (.bool true, .int 4)]⟩]

/-- The same dictionaries, filled from behind. -/
def refilling : Store where
  dicts := #[⟨[(.map ⟨1⟩, .nil), (.str "1", .int 2), (.int 1, .int 2)]⟩,
    ⟨[(.bool true, .int 4), (.int 3, .nil)]⟩]

theorem text_of_contents_filling : filling.render (.map ⟨0⟩) = refilling.render (.map ⟨0⟩) ∧
    filling.renderLine [.map ⟨0⟩, .int 1] = refilling.renderLine [.map ⟨0⟩, .int 1] := by
  have hbuilt : ∀ d, (filling.dict d).Built := by
    rintro ⟨_ | _ | n⟩
    · exact Dict.Proper.built (by simp only [Dict.Proper]; decide)
    · exact Dict.Proper.built (by simp only [Dict.Proper]; decide)
    · exact .empty
  have hrebuilt : filling.Rebuilt refilling := by
    refine ⟨fun _ => rfl, fun _ => rfl, ?_⟩
    rintro ⟨_ | _ | n⟩
    · exact ⟨_, List.reverse_perm _, rfl⟩
    · exact ⟨_, List.reverse_perm _, rfl⟩
    · exact ⟨[], .nil, rfl⟩
  have hscalar : ∀ (n : Nat) (v : Value), v.isScalar = true → filling.Shallow (n + 1) v := by
    intro n v hv w hw
    rw [Store.Part, Store.parts_of_isScalar hv] at hw
    cases hw
  have hinner : filling.Shallow 2 (.map ⟨1⟩) := by
    have hall : ∀ v ∈ [Value.int 3, .nil, .bool true, .int 4], v.isScalar = true := by decide
    exact fun v hv => hscalar 0 v (hall v hv)
  have houter : filling.Shallow 3 (.map ⟨0⟩) := by
    change ∀ v ∈ [Value.int 1, .int 2, .str "1", .int 2, .map ⟨1⟩, .nil], filling.Shallow 2 v
    rw [List.forall_mem_cons, List.forall_mem_cons, List.forall_mem_cons, List.forall_mem_cons,
      List.forall_mem_cons, List.forall_mem_singleton]
    exact ⟨hscalar 1 _ rfl, hscalar 1 _ rfl, hscalar 1 _ rfl, hscalar 1 _ rfl, hinner,
      hscalar 1 _ rfl⟩
  have hacyclic : ∀ v ∈ [Value.map ⟨0⟩, .int 1], filling.Acyclic v := by
    rw [List.forall_mem_cons, List.forall_mem_singleton]
    exact ⟨houter.acyclic, (hscalar 0 (.int 1) rfl).acyclic⟩
  have hprinted := text_of_contents.2 filling refilling _ hacyclic (.inr ⟨hbuilt, hrebuilt⟩)
  obtain ⟨line, hleft, hright⟩ := hprinted.printLine {} {}
  obtain ⟨hmap, -⟩ := List.forall₂_cons.mp hprinted.text
  refine ⟨hmap, ?_⟩
  simp only [Native.printLine, Reply.print.injEq, and_true] at hleft hright
  rw [hleft, hright]

end Flowgraph
