import Mathlib.Tactic.Common
import Flowgraph.Proofs.Upkeep.Operation

/-!
# Where operations write

An operation writes to slots of the frame that it is performed in, and to the slots that its
destinations denote, which lie further out when their level says so. A property of stores that
survives these writes, and whatever is done outside frames, survives the operation.
-/

namespace Flowgraph

namespace Program

/-- Where the operation of a node may write when it is performed in a frame: in that frame, or in
the slot of a destination that lies further out. -/
def Place (p : Program) (s : Store) (f : FrameId) (n : Node) (g : FrameId) (i : Nat) : Prop :=
  g = f ∨ ∃ d ∈ destinations n, ∃ m, p.node d = .ok m ∧ 1 ≤ m.level ∧ m.slot = some i ∧
    s.ancestor? f m.level = some g

variable {p : Program} {f : FrameId} {id : NodeId} {n : Node} {I : Store → Prop}

lemma keeps_setSlot {i : Nat} {v : Value} (h : ∀ s, I s → I (s.setSlot f i v)) (missing : Stop) :
    Op.Keeps I (fun _ => True) (Op.setSlot f i v missing) fun _ => True :=
  .get fun _ _ => .ite (fun _ => .modify h) fun _ => .throw trivial

lemma keeps_setSlots {start : Nat} {vs : List Value}
    (h : ∀ s i v, start ≤ i → i < start + vs.length → I s → I (s.setSlot f i v))
    (missing : Stop) :
    Op.Keeps I (fun _ => True) (Op.setSlots f start vs missing) fun _ => True := by
  induction vs generalizing start with
  | nil => exact .pure trivial
  | cons v vs ih =>
    rw [List.length_cons] at h
    have hfirst : ∀ s, I s → I (s.setSlot f start v) := fun s =>
      h s start v (Nat.le_refl _) (by omega)
    refine .bind (keeps_setSlot hfirst missing) fun _ _ => ?_
    exact ih fun s i w hi hlt => h s i w (by omega) (by omega)

lemma keeps_setOwn {v : Value} (h : ∀ s i, I s → I (s.setSlot f i v)) :
    Op.Keeps I (fun _ => True) (p.setOwn f id v) fun _ => True := by
  refine .bind (.lift (P := fun _ => True) ?_) fun m _ => ?_
  · cases p.node id <;> exact trivial
  · cases m.slot with
    | none => exact .throw trivial
    | some slot => exact keeps_setSlot (fun s hs => h s slot hs) _

section Write

variable (h : ∀ s g i v, I s → p.Place s f n g i → I (s.setSlot g i v))

include h

lemma keeps_assignTo {d : NodeId} (hd : d ∈ destinations n) (v : Value) :
    Op.Keeps I (fun _ => True) (p.assignTo f d v) fun _ => True := by
  simp only [assignTo]
  refine .bind (P := fun m => p.node d = .ok m) (.lift ?_) fun m hm => ?_
  · cases hm : p.node d with
    | ok m => exact rfl
    | error e => exact trivial
  · cases hslot : m.slot with
    | none => exact .pure trivial
    | some slot =>
      intro s hs
      have hplace : ∀ g, s.ancestor? f m.level = some g → p.Place s f n g slot := by
        intro g hg
        rcases Nat.eq_zero_or_pos m.level with hl | hl
        · rw [hl, Store.ancestor?_zero] at hg
          cases hg
          exact .inl rfl
        · exact .inr ⟨d, hd, m, hm, hl, hslot, hg⟩
      dsimp only
      rw [Op.look_bind_apply, frameAt]
      cases hg : s.ancestor? f m.level with
      | none => exact ⟨hs, trivial⟩
      | some g =>
        dsimp only
        rw [Op.setSlot, Op.bind_apply, Op.get_apply]
        dsimp only
        split_ifs
        · exact ⟨h s g slot v hs (hplace g hg), trivial⟩
        · exact ⟨hs, trivial⟩

/-- A property that survives what an operation may write is under control, whatever values are
around and however the operation ends. -/
lemma regime_of_steady (hn : p.node id = .ok n) (hst : Steady I fun _ => True)
    (hmap : n.kind = .make → ∀ s, I s → I (s.newDict {}).2)
    (hdict : n.kind = .mapLit → ∀ s d, I s → d.Proper → I (s.newDict d).2)
    (hentry : n.kind = .assignMap → ∀ s d k v, I s → I (s.insertEntry d k v))
    (hprint : n.kind = .println → ∀ s line, I s → I (s.writeLine line))
    (hclose : n.kind = .close → ∀ s c, I s →
      I (s.updateChannel c fun ch => { ch with closed := true })) :
    Regime p f id n I (fun _ => True) (fun _ => True) where
  toSteady := hst
  node := hn
  tolerant _ _ := trivial
  read _ _ := Look.gives_any _
  readAll _ _ := (Look.gives_any _).mono fun _ _ _ _ => trivial
  readSpread _ _ _ _ _ _ _ := (Look.gives_any _).mono fun _ _ _ _ => trivial
  readPosition _ slot _ t _ := by cases t.slot? f (slot + 1) <;> exact trivial
  writeOwn _ v _ := keeps_setOwn fun s slot hs => h s f slot v hs (.inl rfl)
  writeTo _ hd v _ := keeps_assignTo h hd v
  writePosition _ slot _ s v hs _ := h s f (slot + 1) v hs (.inl rfl)
  writeResults _ := by
    refine .bind (.lift (P := fun _ => True) ?_) fun m _ => ?_
    · cases p.node id <;> exact trivial
    · refine .bind (.look (Look.gives_any _)) fun vs _ => ?_
      exact keeps_setSlots (fun s i v _ _ hs => h s f i v hs (.inl rfl)) _
  newMap := hmap
  newDict hk s d hs hd _ := hdict hk s d hs hd
  insertEntry hk s d k v hs _ _ := hentry hk s d k v hs
  print := hprint
  close := hclose
  closure _ _ _ := trivial
  address _ _ _ _ _ _ _ := trivial

lemma regime_of_setSlot (hn : p.node id = .ok n) (hst : Stable I fun _ => True)
    (hclose : n.kind = .close → ∀ s c, I s →
      I (s.updateChannel c fun ch => { ch with closed := true })) :
    Regime p f id n I (fun _ => True) (fun _ => True) :=
  regime_of_steady h hn hst.toSteady (fun _ => hst.newMap)
    (fun _ s d hs hd => hst.newDict s d hs hd fun _ _ => ⟨trivial, trivial⟩)
    (fun _ s d k v hs => hst.insertEntry s d k v hs trivial trivial) (fun _ => hst.writeLine) hclose

end Write

end Program

end Flowgraph
