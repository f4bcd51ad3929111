import Mathlib.Tactic.Common
import Flowgraph.Operation

/-!
# Renaming

Values name frames, blocks, dictionaries and channels of the store. Which names these are has no
meaning: a renaming gives new names, and everything that mentions names can be renamed. How
something is renamed depends on the new names of what it mentions, and on nothing else.
-/

namespace Flowgraph

/-- The tables of a store that names lead into. -/
inductive Table where
  | frames
  | blocks
  | dicts
  | channels
  deriving DecidableEq, Repr

/-- New names for the names of every table. -/
abbrev Renaming := Table → Nat → Nat

/-- Every name stays what it is. -/
def Renaming.id : Renaming := fun _ k => k

/-- One renaming after the other. -/
def Renaming.then (σ π : Renaming) : Renaming := fun T k => π T (σ T k)

/-- Different names of a table become different names. -/
def Renaming.Injective (π : Renaming) : Prop := ∀ T j k, π T j = π T k → j = k

/-- What mentions names. Two renamings do the same to it exactly if they agree on the names that it
mentions. -/
class Named (α : Type) where
  rename : Renaming → α → α
  Mentions : α → Table → Nat → Prop
  rename_id (a : α) : rename .id a = a
  rename_rename (σ π : Renaming) (a : α) : rename π (rename σ a) = rename (σ.then π) a
  rename_eq_iff (ρ σ : Renaming) (a : α) :
    rename ρ a = rename σ a ↔ ∀ T k, Mentions a T k → ρ T k = σ T k

export Named (rename Mentions)

namespace Named

attribute [simp] rename_id rename_rename

/-- What mentions no names is not affected by renaming. -/
@[reducible] def plain (α : Type) : Named α where
  rename _ a := a
  Mentions _ _ _ := False
  rename_id _ := rfl
  rename_rename _ _ _ := rfl
  rename_eq_iff _ _ _ := by simp

instance : Named Unit := plain _
instance : Named Bool := plain _
instance : Named Nat := plain _
instance : Named Int64 := plain _
instance : Named NodeId := plain _
instance : Named Stop := plain _

section Plain

variable (π : Renaming)

@[simp] lemma rename_nat (n : Nat) : rename π n = n := rfl
@[simp] lemma rename_int64 (i : Int64) : rename π i = i := rfl
@[simp] lemma rename_truth (b : Bool) : rename π b = b := rfl
@[simp] lemma rename_unit (u : Unit) : rename π u = u := rfl
@[simp] lemma rename_nodeId (id : NodeId) : rename π id = id := rfl
@[simp] lemma rename_stop (e : Stop) : rename π e = e := rfl

end Plain

/-! ### Names -/

instance : Named FrameId where
  rename π f := ⟨π .frames f.index⟩
  Mentions f T k := T = .frames ∧ k = f.index
  rename_id _ := rfl
  rename_rename _ _ _ := rfl
  rename_eq_iff _ _ _ := by simp

instance : Named BlockId where
  rename π b := ⟨π .blocks b.index⟩
  Mentions b T k := T = .blocks ∧ k = b.index
  rename_id _ := rfl
  rename_rename _ _ _ := rfl
  rename_eq_iff _ _ _ := by simp

instance : Named DictId where
  rename π d := ⟨π .dicts d.index⟩
  Mentions d T k := T = .dicts ∧ k = d.index
  rename_id _ := rfl
  rename_rename _ _ _ := rfl
  rename_eq_iff _ _ _ := by simp

instance : Named ChannelId where
  rename π c := ⟨π .channels c.index⟩
  Mentions c T k := T = .channels ∧ k = c.index
  rename_id _ := rfl
  rename_rename _ _ _ := rfl
  rename_eq_iff _ _ _ := by simp

section Indices

variable (π : Renaming)

@[simp] lemma index_rename_frame (f : FrameId) : (rename π f).index = π .frames f.index := rfl
@[simp] lemma index_rename_block (b : BlockId) : (rename π b).index = π .blocks b.index := rfl
@[simp] lemma index_rename_dict (d : DictId) : (rename π d).index = π .dicts d.index := rfl
@[simp] lemma index_rename_channel (c : ChannelId) :
    (rename π c).index = π .channels c.index := rfl

end Indices

/-! ### Containers -/

variable {α β : Type} [Named α] [Named β]

instance : Named (Option α) where
  rename π o := o.map (rename π)
  Mentions o T k := ∃ a ∈ o, Mentions a T k
  rename_id o := by cases o <;> simp
  rename_rename σ π o := by cases o <;> simp
  rename_eq_iff ρ σ o := by cases o <;> simp [rename_eq_iff]

instance : Named (List α) where
  rename π l := l.map (rename π)
  Mentions l T k := ∃ a ∈ l, Mentions a T k
  rename_id l := (List.map_congr_left fun a _ => rename_id a).trans l.map_id'
  rename_rename σ π l := by simp [Function.comp_def]
  rename_eq_iff ρ σ l := by
    simp only [List.map_inj_left, rename_eq_iff]
    constructor
    · rintro h T k ⟨a, ha, hk⟩
      exact h a ha T k hk
    · intro h a ha T k hk
      exact h T k ⟨a, ha, hk⟩

instance : Named (Array α) where
  rename π l := l.map (rename π)
  Mentions l T k := ∃ a ∈ l, Mentions a T k
  rename_id l := (Array.map_congr_left fun a _ => rename_id a).trans (Array.map_id' l)
  rename_rename σ π l := by simp [Function.comp_def]
  rename_eq_iff ρ σ l := by
    simp only [Array.map_inj_left, rename_eq_iff]
    constructor
    · rintro h T k ⟨a, ha, hk⟩
      exact h a ha T k hk
    · intro h a ha T k hk
      exact h T k ⟨a, ha, hk⟩

instance : Named (α × β) where
  rename π e := (rename π e.1, rename π e.2)
  Mentions e T k := Mentions e.1 T k ∨ Mentions e.2 T k
  rename_id _ := by simp
  rename_rename _ _ _ := by simp
  rename_eq_iff ρ σ e := by simp [rename_eq_iff, or_imp, forall_and]

instance : Named (Except Stop α) where
  rename π x := x.map (rename π)
  Mentions x T k := ∃ a, x = .ok a ∧ Mentions a T k
  rename_id x := by cases x <;> simp [Except.map]
  rename_rename σ π x := by cases x <;> simp [Except.map]
  rename_eq_iff ρ σ x := by cases x <;> simp [Except.map, rename_eq_iff]

@[simp] lemma rename_none (π : Renaming) : rename π (none : Option α) = none := rfl

@[simp] lemma rename_some (π : Renaming) (a : α) : rename π (some a) = some (rename π a) := rfl

@[simp] lemma rename_nil (π : Renaming) : rename π ([] : List α) = [] := rfl

@[simp] lemma rename_cons (π : Renaming) (a : α) (l : List α) :
    rename π (a :: l) = rename π a :: rename π l := rfl

@[simp] lemma rename_ok (π : Renaming) (a : α) :
    rename π (.ok a : Except Stop α) = .ok (rename π a) := rfl

@[simp] lemma rename_error (π : Renaming) (e : Stop) :
    rename π (.error e : Except Stop α) = .error e := rfl

@[simp] lemma rename_pair (π : Renaming) (a : α) (b : β) :
    rename π (a, b) = (rename π a, rename π b) := rfl

/-- What mentions no names may also be missing. -/
lemma rename_except {x : Except Stop α} (h : ∀ π : Renaming, ∀ a : α, rename π a = a)
    (π : Renaming) : rename π x = x := by
  cases x with
  | ok a => exact congrArg Except.ok (h π a)
  | error e => rfl

lemma rename_list (π : Renaming) (l : List α) : rename π l = l.map (rename π) := rfl

lemma rename_array (π : Renaming) (l : Array α) : rename π l = l.map (rename π) := rfl

@[simp] lemma rename_append (π : Renaming) (l l' : List α) :
    rename π (l ++ l') = rename π l ++ rename π l' := List.map_append

end Named

/-! ### Values -/

open Named

instance : Named Value where
  rename π
    | .slice b => .slice (rename π b)
    | .struct b => .struct (rename π b)
    | .pointer b i => .pointer (rename π b) i
    | .map d => .map (rename π d)
    | .chan c => .chan (rename π c)
    | .func decl env => .func decl (rename π env)
    | v => v
  Mentions v T k := match v with
    | .slice b | .struct b | .pointer b _ => Mentions b T k
    | .map d => Mentions d T k
    | .chan c => Mentions c T k
    | .func _ env => Mentions env T k
    | _ => False
  rename_id v := by cases v <;> simp
  rename_rename σ π v := by cases v <;> simp
  rename_eq_iff ρ σ v := by cases v <;> simp [rename_eq_iff]

section Values

variable (π : Renaming)

@[simp] lemma rename_nil_value : rename π Value.nil = .nil := rfl
@[simp] lemma rename_bool (b : Bool) : rename π (Value.bool b) = .bool b := rfl
@[simp] lemma rename_int (i : Int64) : rename π (Value.int i) = .int i := rfl
@[simp] lemma rename_float (x : Float) : rename π (Value.float x) = .float x := rfl
@[simp] lemma rename_str (t : String) : rename π (Value.str t) = .str t := rfl
@[simp] lemma rename_slice (b : BlockId) : rename π (Value.slice b) = .slice (rename π b) := rfl
@[simp] lemma rename_struct (b : BlockId) : rename π (Value.struct b) = .struct (rename π b) := rfl
@[simp] lemma rename_pointer (b : BlockId) (i : Nat) :
    rename π (Value.pointer b i) = .pointer (rename π b) i := rfl
@[simp] lemma rename_map (d : DictId) : rename π (Value.map d) = .map (rename π d) := rfl
@[simp] lemma rename_chan (c : ChannelId) : rename π (Value.chan c) = .chan (rename π c) := rfl
@[simp] lemma rename_func (decl : NodeId) (env : Option FrameId) :
    rename π (Value.func decl env) = .func decl (rename π env) := rfl
@[simp] lemma rename_native (name : String) : rename π (Value.native name) = .native name := rfl
@[simp] lemma rename_ofNat (n : Nat) : rename π (Value.ofNat n) = .ofNat n := rfl

@[simp] lemma rename_ofLiteral (l : Literal) : rename π (Value.ofLiteral l) = .ofLiteral l := by
  cases l <;> rfl

@[simp] lemma typeName_rename (v : Value) : (rename π v).typeName = v.typeName := by
  cases v <;> rfl

/-! ### Equality -/

variable {π}

section Injective

variable (hπ : π.Injective)

include hπ

lemma rename_frame_inj {f g : FrameId} : rename π f = rename π g ↔ f = g :=
  ⟨fun h => congrArg FrameId.mk (hπ _ _ _ (FrameId.mk.inj h)), congrArg _⟩

lemma rename_block_inj {b c : BlockId} : rename π b = rename π c ↔ b = c :=
  ⟨fun h => congrArg BlockId.mk (hπ _ _ _ (BlockId.mk.inj h)), congrArg _⟩

lemma rename_dict_inj {d e : DictId} : rename π d = rename π e ↔ d = e :=
  ⟨fun h => congrArg DictId.mk (hπ _ _ _ (DictId.mk.inj h)), congrArg _⟩

lemma rename_channel_inj {c d : ChannelId} : rename π c = rename π d ↔ c = d :=
  ⟨fun h => congrArg ChannelId.mk (hπ _ _ _ (ChannelId.mk.inj h)), congrArg _⟩

/-- Renaming does not change which values are equal. -/
lemma beq_rename (v w : Value) : (rename π v == rename π w) = (v == w) := by
  have henv : ∀ f g : Option FrameId, rename π f = rename π g ↔ f = g := fun f g => by
    cases f <;> cases g <;> simp [rename_frame_inj hπ]
  rw [Value.beq_eq_same, Value.beq_eq_same, Bool.eq_iff_iff]
  cases v <;> cases w <;>
    simp [Value.same, rename_block_inj hπ, rename_dict_inj hπ, rename_channel_inj hπ, henv]

end Injective

end Values

end Flowgraph
