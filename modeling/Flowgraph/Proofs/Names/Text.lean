import Mathlib.Algebra.BigOperators.Group.Finset.Basic
import Mathlib.Data.Finset.Range
import Flowgraph.Native.Probe
import Flowgraph.Proofs.Names.Stores
import Flowgraph.Proofs.Natives

/-!
# Texts and natives do not show names

The text of a value says nothing about names, and a store has as many places as before when it is
renamed. So a native does the same whatever things are named.
-/

namespace Flowgraph

open Named

variable {π : Renaming} {s t : Store}

/-! ### Places -/

lemma foldl_add_eq_sum {α : Type} (w : α → Nat) (l : List α) (n : Nat) :
    l.foldl (fun n a => n + w a) n
      = n + ∑ k ∈ Finset.range l.length, (l[k]?.map w).getD 0 := by
  induction l generalizing n with
  | nil => simp
  | cons a l ih =>
    rw [List.foldl_cons, ih, List.length_cons, Finset.sum_range_succ']
    simp only [List.getElem?_cons_succ, List.getElem?_cons_zero, Option.map_some,
      Option.getD_some]
    omega

/-- Moving what is in a table does not change its total weight. -/
lemma Moved.foldl_add {α : Type} [Named α] {f : Nat → Nat} {a b : Array α} (h : Moved π f a b)
    (hf : Function.Injective f) {w : α → Nat} (hw : ∀ x, w (rename π x) = w x) :
    b.foldl (fun n x => n + w x) 0 = a.foldl (fun n x => n + w x) 0 := by
  rw [← Array.foldl_toList, ← Array.foldl_toList, foldl_add_eq_sum, foldl_add_eq_sum,
    Nat.zero_add, Nat.zero_add, Array.length_toList, Array.length_toList, h.size]
  have hmaps : ∀ k ∈ Finset.range a.size, f k ∈ Finset.range a.size := by
    intro k hk
    rw [Finset.mem_range] at hk ⊢
    have hget := h.get k
    rw [Array.getElem?_eq_getElem hk] at hget
    rw [← h.size]
    exact (Array.getElem?_eq_some_iff.mp hget).1
  refine (Finset.sum_nbij f hmaps (hf.injOn) ?_ ?_).symm
  · exact Finset.surjOn_of_injOn_of_card_le f hmaps hf.injOn (Nat.le_refl _)
  · intro k _
    rw [Array.getElem?_toList, Array.getElem?_toList, h.get]
    cases a[k]? with
    | none => rfl
    | some x => exact (hw x).symm

namespace Store.Renamed

variable (h : s.Renamed π t)

include h

lemma places : t.places = s.places :=
  congrArg₂ (· + ·)
    (h.blocks.foldl_add (h.injective _) fun x => by rw [rename_array, Array.size_map])
    (h.dicts.foldl_add (h.injective _) fun x => congrArg (2 * ·) (rename_dict_size x))

/-! ### Texts -/

lemma renderTo (depth : Nat) (v : Value) : t.renderTo depth (rename π v) = s.renderTo depth v := by
  induction depth generalizing v with
  | zero => rfl
  | succ depth ih =>
    have hblock : ∀ b, (t.block (rename π b)).toList.map (t.renderTo depth)
        = (s.block b).toList.map (s.renderTo depth) := fun b => by
      rw [h.block, rename_array, Array.toList_map, List.map_map]
      exact List.map_congr_left fun v _ => ih v
    cases v with
    | slice b => simp only [rename_slice, Store.renderTo, hblock]
    | struct b => simp only [rename_struct, Store.renderTo, hblock]
    | pointer b i =>
      simp only [rename_pointer, Store.renderTo, h.target?]
      cases s.target? b i with
      | none => rfl
      | some target => exact congrArg ("&" ++ ·) (ih target)
    | map d =>
      simp only [rename_map, Store.renderTo, h.dict, rename_dict, rename_list, List.map_map]
      refine congrArg (fun entries => _ ++ joinSorted entries ++ _) (List.map_congr_left ?_)
      rintro ⟨k, v⟩ _
      exact congrArg₂ (fun a b => a ++ ":" ++ b) (ih k) (ih v)
    | chan c => simp only [rename_chan, Store.renderTo, h.channel]; rfl
    | _ => rfl

lemma render (v : Value) : t.render (rename π v) = s.render v := by
  rw [render_eq_renderTo, render_eq_renderTo, h.places, h.renderTo]

lemma renderLine (vs : List Value) : t.renderLine (rename π vs) = s.renderLine vs := by
  rw [Store.renderLine, Store.renderLine, rename_list, List.map_map]
  exact congrArg _ (List.map_congr_left fun v _ => h.render v)

end Store.Renamed

/-! ### Natives -/

instance : Named Reply where
  rename π
    | .results vs => .results (rename π vs)
    | .print line vs => .print line (rename π vs)
    | .stop e => .stop e
    | .call f args => .call (rename π f) (rename π args)
  Mentions r T k := match r with
    | .results vs | .print _ vs => Mentions vs T k
    | .stop _ => False
    | .call f args => Mentions f T k ∨ Mentions args T k
  rename_id r := by cases r <;> simp
  rename_rename σ π r := by cases r <;> simp
  rename_eq_iff ρ σ r := by cases r <;> simp [rename_eq_iff, or_imp, forall_and]

/-- In a renamed store and with renamed arguments, a native has a renamed reply. -/
def Native.Blind (run : Native) : Prop :=
  ∀ (π : Renaming) (config : Config) (s t : Store) (args : List Value), s.Renamed π t →
    run config t (rename π args) = rename π (run config s args)

/-- All natives are blind to names. -/
def Registry.Blind (r : Registry) : Prop := ∀ e ∈ r.symbols, Native.Blind e.2.run

namespace Registry

variable {r : Registry}

lemma Blind.register (h : r.Blind) {run : Native} (hrun : run.Blind) (name : String)
    (type : Option TypeId) : (r.register name run type).Blind := forall_register h hrun name type

lemma Blind.of_symbol? (h : r.Blind) {name : String} {symbol : Symbol}
    (hs : r.symbol? name = some symbol) : Native.Blind symbol.run := Registry.of_symbol? h hs

end Registry

namespace Native

lemma blind_printLine : printLine.Blind := fun _ _ _ _ args h =>
  congrArg (Reply.print · []) (h.renderLine args)

lemma blind_sprint : sprint.Blind := by
  intro π config s t args h
  have hjoin : ∀ vs : List Value, joinLoosely t (rename π vs) = joinLoosely s vs := by
    intro vs
    induction vs with
    | nil => rfl
    | cons v vs ih =>
      cases vs with
      | nil => exact h.render v
      | cons w vs =>
        have htext : ∀ u : Value, isText (rename π u) = isText u := fun u => by cases u <;> rfl
        rw [rename_cons] at ih ⊢
        rw [rename_cons, joinLoosely, joinLoosely, ih, h.render, htext, htext]
  simp only [sprint, hjoin]
  rfl

lemma blind_itoa : itoa.Blind := by
  intro π config s t args _
  rcases args with _ | ⟨v, _ | ⟨w, rest⟩⟩
  · rfl
  · cases v <;> rfl
  · cases v <;> rfl

lemma blind_toUpper : toUpper.Blind := by
  intro π config s t args _
  rcases args with _ | ⟨v, _ | ⟨w, rest⟩⟩
  · rfl
  · cases v <;> rfl
  · cases v <;> rfl

lemma blind_reverse : reverse.Blind := fun _ _ _ _ _ _ =>
  congrArg Reply.results List.map_reverse.symm

lemma blind_apply : apply.Blind := by
  intro π config s t args h
  cases args with
  | nil => rfl
  | cons f args => rfl

lemma blind_fail : fail.Blind := by
  intro π config s t args h
  simp only [fail, rename_list, List.length_map]
  rfl

lemma blind_crash : crash.Blind := by
  intro π config s t args _
  rcases args with _ | ⟨v, _ | ⟨w, rest⟩⟩
  · rfl
  · cases v <;> rfl
  · cases v <;> rfl

lemma blind_limit : limit.Blind := fun _ _ _ _ _ _ => rfl

end Native

/-- The standard natives are blind to names. -/
theorem blind_standard : Registry.standard.Blind := by
  have hempty : Registry.empty.Blind := fun e he => absurd he List.not_mem_nil
  have hline := hempty.register Native.blind_printLine "fmt.Println" none
  have hsprint := hline.register Native.blind_sprint "fmt.Sprint" none
  have hitoa := hsprint.register Native.blind_itoa "strconv.Itoa" none
  exact hitoa.register Native.blind_toUpper "strings.ToUpper" none

/-- So are the probes. -/
theorem blind_probing : Registry.probing.Blind := by
  have hrev := blind_standard.register Native.blind_reverse "test.rev" none
  have happly := hrev.register Native.blind_apply "test.apply" none
  have hfail := happly.register Native.blind_fail "test.fail" none
  have hpanic := hfail.register Native.blind_crash "test.panic" none
  exact hpanic.register Native.blind_limit "test.limit" none

end Flowgraph
