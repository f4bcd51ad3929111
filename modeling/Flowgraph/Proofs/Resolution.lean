import Mathlib.Tactic.Common
import Flowgraph.Proofs.Assign.Reading

/-!
# Reading and writing on the forest of frames

Frames are created one after another, each below a frame that is there or below none. So the way
outwards from a frame is a finite list of frames without repetitions.

A variable denotes a cell: a slot of the frame some levels out. Reading and writing it find the
same cell, or fail in the same way. So what is written is what all variables of this cell are read
as, from whichever frame, and all other variables are read as before.
-/

namespace Flowgraph

namespace Store

variable {s t : Store} {f g : FrameId} {fs : List FrameId} {size n : Nat}
  {parent : Option FrameId}

/-! ### The forest -/

/-- Frames have been created one after another, with changes to slots and besides frames in
between. -/
inductive Planted : Store → Prop
  | none {s : Store} (empty : s.frames = #[]) : Planted s
  | create {s : Store} {size : Nat} {parent : Option FrameId} (before : Planted s)
      (exists_parent : ∀ g, parent = some g → g.index < s.frames.size) :
      Planted (s.newFrame size parent).2
  | change {s t : Store} (before : Planted s) (links : Spares (fun _ _ => True) s t) : Planted t

lemma parent?_newFrame (f : FrameId) : (s.newFrame size parent).2.parent? f =
    if f.index = s.frames.size then parent else s.parent? f := by
  rw [Store.parent?, Store.frame, newFrame, Array.getElem?_push]
  split_ifs <;> rfl

/-- A frame is created after the one it links to. -/
lemma Planted.parent_lt (h : s.Planted) :
    ∀ f g, s.parent? f = some g → g.index < f.index ∧ f.index < s.frames.size := by
  induction h with
  | none hempty =>
    intro f g hg
    rw [Store.parent?, Store.frame, hempty] at hg
    cases hg
  | @create s size parent _ hexists ih =>
    intro f g hg
    have hsize : (s.newFrame size parent).2.frames.size = s.frames.size + 1 := Array.size_push _
    rw [parent?_newFrame] at hg
    split_ifs at hg with hnew
    · exact ⟨hnew ▸ hexists g hg, by omega⟩
    · have hlt := ih f g hg
      exact ⟨hlt.1, by omega⟩
  | change _ hlinks ih =>
    intro f g hg
    rw [hlinks.size]
    exact ih f g (hlinks.parent f ▸ hg)

/-- Going outwards means going to frames that were created earlier. -/
lemma Planted.ancestor?_le (h : s.Planted) (hg : s.ancestor? f n = some g) :
    g.index + n ≤ f.index := by
  induction n generalizing f with
  | zero =>
    cases hg
    exact Nat.le_refl _
  | succ n ih =>
    rw [ancestor?_succ] at hg
    obtain ⟨q, hq, hg⟩ := Option.bind_eq_some_iff.mp hg
    have hlt := (h.parent_lt f q hq).1
    have hle := ih hg
    omega

/-- The frames from one on outwards, up to the one that links to none. -/
inductive Outward (s : Store) : FrameId → List FrameId → Prop
  | last {f : FrameId} (root : s.parent? f = none) : Outward s f [f]
  | step {f g : FrameId} {fs : List FrameId} (link : s.parent? f = some g) (rest : Outward s g fs) :
      Outward s f (f :: fs)

lemma Outward.getElem? (h : s.Outward f fs) (n : Nat) : fs[n]? = s.ancestor? f n := by
  induction h generalizing n with
  | last hroot =>
    cases n with
    | zero => rfl
    | succ n =>
      rw [ancestor?_succ, hroot]
      rfl
  | step hlink _ ih =>
    cases n with
    | zero => rfl
    | succ n =>
      rw [ancestor?_succ, hlink]
      exact ih n

lemma Planted.nodup (h : s.Planted) (hf : s.Outward f fs) : fs.Nodup := by
  induction hf with
  | last => simp
  | @step f g fs hlink hrest ih =>
    refine List.nodup_cons.mpr ⟨fun hmem => ?_, ih⟩
    obtain ⟨n, hn⟩ := List.mem_iff_getElem?.mp hmem
    have hle := h.ancestor?_le ((hrest.getElem? n).symm.trans hn)
    have hlt := (h.parent_lt f g hlink).1
    omega

/-- By induction on when the frame was created. -/
lemma Planted.exists_outward (h : s.Planted) (f : FrameId) : ∃ fs, s.Outward f fs := by
  induction hi : f.index using Nat.strongRecOn generalizing f with
  | ind i ih =>
    cases hg : s.parent? f with
    | none => exact ⟨[f], .last hg⟩
    | some g =>
      obtain ⟨fs, hfs⟩ := ih g.index (hi ▸ (h.parent_lt f g hg).1) g rfl
      exact ⟨f :: fs, .step hg hfs⟩

/-! ### Cells -/

variable {d : NodeId} {level i : Nat} {l : Site} {v : Value}

/-- The slot that is denoted at a level, or why there is none. -/
def cell (s : Store) (f : FrameId) (d : NodeId) (level i : Nat) : Except Stop Site :=
  match s.ancestor? f level with
  | none => .error (.malformed d .levelTooDeep)
  | some g => if i < s.frameSize g then .ok (g, i) else .error (.malformed d .slotBeyondFrame)

lemma cell_eq_ok : s.cell f d level i = .ok l ↔
    s.ancestor? f level = some l.1 ∧ l.2 = i ∧ i < s.frameSize l.1 := by
  obtain ⟨g, j⟩ := l
  rw [cell]
  cases s.ancestor? f level with
  | none => exact ⟨nofun, nofun⟩
  | some h =>
    dsimp only
    split_ifs with hlt
    · constructor
      · rintro ⟨⟩
        exact ⟨rfl, rfl, hlt⟩
      · rintro ⟨hg, rfl, -⟩
        rw [Option.some.inj hg]
    · refine ⟨nofun, ?_⟩
      rintro ⟨hg, -, hlt'⟩
      exact absurd (Option.some.inj hg ▸ hlt') hlt

/-- Slots that are written to stay where they are. -/
lemma cell_setSlot (h : FrameId) (j : Nat) (v : Value) :
    (s.setSlot h j v).cell f d level i = s.cell f d level i := by
  have hlinks := (Spares.refl (fun _ _ => True) s).setSlot (f := h) (i := j) trivial v
  simp only [cell, hlinks.ancestor?, frameSize_setSlot]

/-- The content of a cell. -/
def siteValue (s : Store) (l : Site) : Value := (s.slot? l.1 l.2).getD .nil

lemma siteValue_setSlot {l k : Site} (hl : l.2 < s.frameSize l.1) (v : Value) :
    (s.setSlot l.1 l.2 v).siteValue k = if k = l then v else s.siteValue k := by
  split_ifs with hk
  · rw [hk, siteValue, slot?_setSlot_self hl]
    rfl
  · rw [siteValue, slot?_setSlot_of_ne fun hg hi => hk (Prod.ext hg hi)]
    rfl

end Store

namespace Program

variable {p : Program} {s s' t : Store} {f g : FrameId} {a b d : NodeId} {n : Node}
  {i j la lb level : Nat} {v w : Value} {e : Stop}

/-- A variable is read as what its cell holds. -/
lemma Variable.value_eq (h : p.Variable d i level) (f : FrameId) (s : Store) :
    p.value f d s = (s.cell f d level i).map s.siteValue := by
  rw [Store.cell]
  cases ho : s.ancestor? f level with
  | none => exact h.value_tooDeep ho
  | some g =>
    dsimp only
    split_ifs with hlt
    · have hv : s.slot? g i = some _ := Array.getElem?_eq_getElem hlt
      rw [h.value_ok ho hv, Except.map, Store.siteValue, hv]
      rfl
    · exact h.value_beyond ho (Array.getElem?_eq_none (Nat.le_of_not_lt hlt))

/-- Whatever kind it has, a node with a slot is written to in its cell. -/
lemma assignTo_eq (hn : p.node d = .ok n) (hi : n.slot = some i) (f : FrameId) (v : Value)
    (s : Store) : p.assignTo f d v s = match s.cell f d n.level i with
      | .ok l => .ok () (s.setSlot l.1 l.2 v)
      | .error e => .error e s := by
  rw [assignTo, Op.except_bind_apply, hn]
  dsimp only
  rw [hi]
  dsimp only
  rw [Op.look_bind_apply, frameAt, Store.cell]
  cases s.ancestor? f n.level with
  | none => rfl
  | some g =>
    dsimp only
    rw [Op.setSlot, Op.bind_apply, Op.get_apply]
    dsimp only
    split_ifs <;> rfl

lemma Variable.assignTo_eq (h : p.Variable d i level) (f : FrameId) (v : Value) (s : Store) :
    p.assignTo f d v s = match s.cell f d level i with
      | .ok l => .ok () (s.setSlot l.1 l.2 v)
      | .error e => .error e s := by
  obtain ⟨n, hn, -, hi, rfl⟩ := h
  exact Program.assignTo_eq hn hi f v s

lemma assignTo_blank (hn : p.node d = .ok n) (hi : n.slot = none) (f : FrameId) (v : Value)
    (s : Store) : p.assignTo f d v s = .ok () s := by
  rw [assignTo, Op.except_bind_apply, hn]
  dsimp only
  rw [hi]
  rfl

/-- What cannot be written leaves no trace. -/
lemma assignTo_failed (h : p.assignTo f d v s = .error e s') : s' = s := by
  cases hn : p.node d with
  | error e =>
    rw [assignTo, Op.except_bind_apply, hn] at h
    cases h
    rfl
  | ok n =>
    cases hi : n.slot with
    | none =>
      rw [assignTo_blank hn hi] at h
      cases h
    | some i =>
      rw [Program.assignTo_eq hn hi] at h
      cases hc : s.cell f d n.level i with
      | ok l =>
        rw [hc] at h
        cases h
      | error e =>
        rw [hc] at h
        cases h
        rfl

/-- Writing succeeds where reading does. -/
lemma Variable.assignTo_ok_iff (h : p.Variable d i level) :
    (∃ s', p.assignTo f d v s = .ok () s') ↔ ∃ w, p.value f d s = .ok w := by
  rw [h.assignTo_eq, h.value_eq]
  cases s.cell f d level i with
  | error e => exact ⟨nofun, nofun⟩
  | ok l => exact ⟨fun _ => ⟨_, rfl⟩, fun _ => ⟨_, rfl⟩⟩

/-- Writing fails as reading does. -/
lemma Variable.assignTo_error_iff (h : p.Variable d i level) :
    (∃ s', p.assignTo f d v s = .error e s') ↔ p.value f d s = .error e := by
  rw [h.assignTo_eq, h.value_eq]
  cases s.cell f d level i with
  | error e' => exact ⟨fun ⟨_, he⟩ => by cases he; rfl, fun he => ⟨s, by cases he; rfl⟩⟩
  | ok l => exact ⟨nofun, nofun⟩

/-- After `a` was written, `b` is read as what was written if it denotes the same cell, and as
before otherwise. -/
lemma Variable.value_assigned (ha : p.Variable a i la) (hb : p.Variable b j lb)
    (hs : p.assignTo f a v s = .ok () s') :
    p.value g b s' = if s.ancestor? g lb = s.ancestor? f la ∧ j = i then .ok v
      else p.value g b s := by
  rw [ha.assignTo_eq] at hs
  cases hl : s.cell f a la i with
  | error e =>
    rw [hl] at hs
    cases hs
  | ok l =>
    rw [hl] at hs
    cases hs
    obtain ⟨hf, rfl, hlt⟩ := Store.cell_eq_ok.mp hl
    rw [hb.value_eq, hb.value_eq, Store.cell_setSlot, hf]
    split_ifs with hsame
    · obtain ⟨hg, rfl⟩ := hsame
      have hk : s.cell g b lb l.2 = .ok l := Store.cell_eq_ok.mpr ⟨hg, rfl, hlt⟩
      rw [hk, Except.map, Store.siteValue_setSlot hlt, if_pos rfl]
    · cases hk : s.cell g b lb j with
      | error e => rfl
      | ok k =>
        obtain ⟨hg, rfl, -⟩ := Store.cell_eq_ok.mp hk
        have hne : k ≠ l := fun he => hsame (he ▸ ⟨hg, rfl⟩)
        rw [Except.map, Except.map, Store.siteValue_setSlot hlt, if_neg hne]

/-- Literals and declarations are read as what they carry, from everywhere. -/
lemma value_literal (hn : p.node d = .ok n) (hk : n.kind = .basicLit ∨ n.kind = .funcDecl)
    (f : FrameId) (t : Store) : p.value f d t = .ok ((p.constant? d).getD .nil) := by
  refine (Look.bind_ok hn).trans ?_
  rw [if_pos hk]
  rfl

/-- Other nodes without a slot are read as what they carry if the frame at their level exists. -/
lemma value_slotless (hn : p.node d = .ok n) (hk : ¬(n.kind = .basicLit ∨ n.kind = .funcDecl))
    (hi : n.slot = none) (f : FrameId) (t : Store) :
    p.value f d t = match t.ancestor? f n.level with
      | none => .error (.malformed d .levelTooDeep)
      | some _ => .ok ((p.constant? d).getD .nil) := by
  refine (Look.bind_ok hn).trans ?_
  rw [if_neg hk, hi]
  change (frameAt f n.level d t >>= fun _ => _) = _
  rw [frameAt]
  cases t.ancestor? f n.level <;> rfl

/-- Variables are written and read, from all frames of a store, as cells that frames share. -/
structure StoreLaws (p : Program) (s : Store) : Prop where
  /-- No frame lies outside itself. -/
  acyclic : ∀ f n, s.ancestor? f (n + 1) ≠ some f
  /-- Going out `m` levels and then `n` levels is going out `m + n` levels. -/
  levels : ∀ f m n, s.ancestor? f (m + n) = (s.ancestor? f m).bind fun g => s.ancestor? g n
  /-- One gets as far out as there are links from frame to frame. -/
  chain : ∀ f, ∃ fs, s.Outward f fs ∧ fs.Nodup ∧
    ∀ n, s.ancestor? f n = fs[n]? ∧ (s.ancestor? f n = none ↔ fs.length ≤ n)
  /-- A variable can be written just if it can be read. -/
  resolves : ∀ f a i level v, p.Variable a i level →
    ((∃ s', p.assignTo f a v s = .ok () s') ↔ ∃ w, p.value f a s = .ok w)
  /-- If not, then both ways for the same reason. -/
  faults : ∀ f a i level v e, p.Variable a i level →
    ((∃ s', p.assignTo f a v s = .error e s') ↔ p.value f a s = .error e)
  /-- What is written to a variable is read from all that denote the same slot of the same
  frame. -/
  written : ∀ f a i la v s', p.Variable a i la → p.assignTo f a v s = .ok () s' →
    ∀ g b j lb, p.Variable b j lb → s.ancestor? g lb = s.ancestor? f la → j = i →
      p.value g b s' = .ok v
  /-- All others are read as before, or fail as before. -/
  spared : ∀ f a i la v s', p.Variable a i la → p.assignTo f a v s = .ok () s' →
    ∀ g b j lb, p.Variable b j lb → ¬(s.ancestor? g lb = s.ancestor? f la ∧ j = i) →
      p.value g b s' = p.value g b s
  /-- Nothing changes if writing fails. -/
  failed : ∀ f a v e s', p.assignTo f a v s = .error e s' → s' = s
  /-- Nothing changes if there is no slot to write to. -/
  blank : ∀ f a n v, p.node a = .ok n → n.slot = none → p.assignTo f a v s = .ok () s
  /-- Literals and declarations are read as what they carry, from every frame of every store. -/
  literal : ∀ a n, p.node a = .ok n → n.kind = .basicLit ∨ n.kind = .funcDecl →
    ∀ f t, p.value f a t = .ok ((p.constant? a).getD .nil)
  /-- So are nodes without a slot, as far as they can be read. -/
  slotless : ∀ a n, p.node a = .ok n → n.slot = none →
    ∀ f t w, p.value f a t = .ok w → w = (p.constant? a).getD .nil

/-- The laws hold in whatever order frames were created and slots were written to. -/
theorem store_laws (p : Program) (h : s.Planted) : p.StoreLaws s where
  acyclic f n hf := by
    have := h.ancestor?_le hf
    omega
  levels := s.ancestor?_add
  chain f := by
    obtain ⟨fs, hfs⟩ := h.exists_outward f
    refine ⟨fs, hfs, h.nodup hfs, fun n => ⟨(hfs.getElem? n).symm, ?_⟩⟩
    rw [← hfs.getElem?, List.getElem?_eq_none_iff]
  resolves _ _ _ _ _ ha := ha.assignTo_ok_iff
  faults _ _ _ _ _ _ ha := ha.assignTo_error_iff
  written _ _ _ _ _ _ ha hs _ _ _ _ hb hg hi := (ha.value_assigned hb hs).trans (if_pos ⟨hg, hi⟩)
  spared _ _ _ _ _ _ ha hs _ _ _ _ hb hne := (ha.value_assigned hb hs).trans (if_neg hne)
  failed _ _ _ _ _ := assignTo_failed
  blank f _ _ v hn hi := assignTo_blank hn hi f v s
  literal _ _ hn hk f t := value_literal hn hk f t
  slotless a n hn hi f t w hw := by
    by_cases hk : n.kind = .basicLit ∨ n.kind = .funcDecl
    · rw [value_literal hn hk] at hw
      exact (Except.ok.inj hw).symm
    · rw [value_slotless hn hk hi] at hw
      cases ho : t.ancestor? f n.level with
      | none =>
        rw [ho] at hw
        cases hw
      | some g =>
        rw [ho] at hw
        exact (Except.ok.inj hw).symm

/-- A program in which one variable lies one level out and another one two levels out. -/
def nested : Program where
  graph := {
    nodes := #[{ kind := .ident, slot := some 0, level := 1 },
      { kind := .ident, slot := some 0, level := 2 },
      { kind := .ident, slot := some 1, level := 2 },
      { kind := .basicLit, slot := some 0 },
      { kind := .typeExpr, level := 1 }] }
  constants := #[none, none, none, some (.int 3), none]
  natives := .empty
  config := {}

/-- Two frames below one frame, and one more below the second of them. -/
def forked : Store :=
  let root := (({} : Store).newFrame 2 none).2
  let left := (root.newFrame 1 (some ⟨0⟩)).2
  let right := (left.newFrame 1 (some ⟨0⟩)).2
  (right.newFrame 1 (some ⟨2⟩)).2

lemma planted_forked : forked.Planted := by
  refine .create (.create (.create (.create (.none rfl) ?_) ?_) ?_) ?_
  all_goals (rintro _ ⟨⟩ <;> decide)

/-- What the first variable is written to from the first of the two frames, the second variable is
read as from below the second of them. -/
theorem store_laws_forked : forked.Planted ∧ nested.StoreLaws forked ∧
    ∃ s', nested.assignTo ⟨1⟩ ⟨0⟩ (.int 7) forked = .ok () s' ∧
      nested.value ⟨3⟩ ⟨1⟩ s' = .ok (.int 7) ∧ nested.value ⟨3⟩ ⟨2⟩ s' = .ok .nil := by
  have hlaws := store_laws nested planted_forked
  have ha : nested.Variable ⟨0⟩ 0 1 := ⟨_, rfl, by decide, rfl, rfl⟩
  have hb : nested.Variable ⟨1⟩ 0 2 := ⟨_, rfl, by decide, rfl, rfl⟩
  have hc : nested.Variable ⟨2⟩ 1 2 := ⟨_, rfl, by decide, rfl, rfl⟩
  refine ⟨planted_forked, hlaws, forked.setSlot ⟨0⟩ 0 (.int 7), rfl, ?_, ?_⟩
  · exact hlaws.written ⟨1⟩ ⟨0⟩ 0 1 _ _ ha rfl ⟨3⟩ ⟨1⟩ 0 2 hb rfl rfl
  · exact (hlaws.spared ⟨1⟩ ⟨0⟩ 0 1 _ _ ha rfl ⟨3⟩ ⟨2⟩ 1 2 hc (by decide)).trans rfl

end Program

end Flowgraph
