import Mathlib.Tactic.Common
import Flowgraph.Proofs.Pointers.Elements
import Flowgraph.Proofs.Spawn.Layout
import Flowgraph.Proofs.Streams.Loop

/-!
# Copies of values

A value goes from place to place as it is. So a copy of a handle is a handle to the same block,
whether it was assigned, passed to a function, captured by a closure, put into a dictionary or sent
on a channel.
-/

namespace Flowgraph

variable {p : Program} {s : Store} {f : FrameId} {id : NodeId}

/-- What becomes of values that a program copies in a store. -/
structure Program.Copies (p : Program) (s : Store) : Prop where
  /-- After an assignment, the slot of the destination holds the value of the source. -/
  assigned : ∀ f id n d c owner i v, p.node id = .ok n → n.kind = .assign → n.children = [d, c] →
    p.Denotes s f id 0 owner i → p.operand f id 1 s = .ok v →
    ∃ t, p.perform f id s = .ok .done t ∧ t.slot? owner i = some v
  /-- In the frame of a call, the slot of a parameter holds the argument that was passed for it. -/
  passed : ∀ decl parent receiver args d callee t, p.definition decl = .ok d →
    (d.receiver.toList ++ d.params).Nodup → p.activate decl parent receiver args s = .ok callee t →
    ∃ a, callee = .declared a ∧ ∀ k i : Nat, d.params[k]? = some i → t.slot? a.frame i = args[k]?
  /-- From the frame of a closure, the frames further out are those of the frame that it captured.
  -/
  captured : ∀ decl f receiver args callee t,
    p.bindValues (.func decl (some f)) receiver args s = .ok callee t →
    ∃ a, callee = .declared a ∧ ∀ level, t.ancestor? a.frame (level + 1) = t.ancestor? f level
  /-- In a dictionary, the value that was assigned is found under its key. -/
  stored : ∀ f id n target d k v, p.node id = .ok n → n.kind = .assignMap → p.child id 0 =
    .ok target →
    p.operand f target 0 s = .ok (.map d) → p.operand f target 1 s = .ok k →
    p.operand f id 1 s = .ok v → d.index < s.dicts.size → (k == k) = true →
    ∃ t, p.perform f id s = .ok .done t ∧ (t.dict d).get? k = some v
  /-- What is sent on a channel is the value of the operand. -/
  sent : ∀ f id n ch v, p.node id = .ok n → n.kind = .send → p.operand f id 0 s = .ok (.chan ch) →
    p.operand f id 1 s = .ok v → p.perform f id s = .ok (.send ch v) s

namespace Store

lemma dict_modify {d : DictId} {change : Dict → Dict} (h : d.index < s.dicts.size ∨ change {} = {})
    (e : DictId) : ({ s with dicts := s.dicts.modify d.index change } : Store).dict e =
      if d = e then change (s.dict e) else s.dict e := by
  simp only [dict, Array.getElem?_modify]
  by_cases he : d = e
  · subst he
    rw [if_pos rfl, if_pos rfl]
    by_cases hlt : d.index < s.dicts.size
    · rw [Array.getElem?_eq_getElem hlt]
      rfl
    · rw [Array.getElem?_eq_none (Nat.le_of_not_lt hlt)]
      exact (h.resolve_left hlt).symm
  · rw [if_neg he, if_neg fun h => he (congrArg DictId.mk h)]

lemma dict_insertEntry {d : DictId} (h : d.index < s.dicts.size) (k v : Value) :
    (s.insertEntry d k v).dict d = (s.dict d).insert k v := by
  rw [insertEntry, dict_modify (.inl h), if_pos rfl]

end Store

namespace Program

lemma assignMap_apply {target : NodeId} {d : DictId} {k v : Value}
    (hchild : p.child id 0 = .ok target)
    (hm : p.operand f target 0 s = .ok (.map d)) (hk : p.operand f target 1 s = .ok k)
    (hv : p.operand f id 1 s = .ok v) : p.assignMap f id s = .ok () (s.insertEntry d k v) := by
  rw [assignMap, hchild]
  change (liftM (p.operand f target 0) >>= _ : Op Unit) s = _
  rw [Op.look_bind_apply, hm]
  dsimp only
  rw [Op.look_bind_apply, hk]
  dsimp only
  rw [Op.look_bind_apply, hv]
  rfl

lemma send_apply {ch : ChannelId} {v : Value} (hc : p.operand f id 0 s = .ok (.chan ch))
    (hv : p.operand f id 1 s = .ok v) : p.send f id s = .ok (.send ch v) := by
  refine (Look.bind_ok hc).trans ((Look.bind_ok hv).trans ?_)
  rfl

/-- In no store does a program make anything else of a value that it copies. -/
theorem copies (p : Program) (s : Store) : p.Copies s := by
  constructor
  case assigned =>
    intro f id n d c owner i v hn hk hchildren hd hv
    have hlt : i < s.frameSize owner := by
      obtain ⟨_, _, -, -, -, -, -, hlt⟩ := hd
      exact hlt
    refine ⟨s.setSlot owner i v, ?_, Store.slot?_setSlot_self hlt v⟩
    rw [perform_of_node hn, hk]
    exact completely_apply (hd.assign hn hchildren hv)
  case passed =>
    intro decl parent receiver args d callee t hd hnodup h
    obtain ⟨d', hd', rfl, slots, rfl, hlays⟩ := of_activate h
    rw [hd] at hd'
    cases hd'
    refine ⟨_, rfl, fun k i hi => ?_⟩
    rw [← (hlays hnodup).arguments k i hi, Array.getElem?_toList, Store.slot?, Store.slots,
      Store.frame_withFrame, if_pos rfl]
  case captured =>
    intro decl f receiver args callee t h
    obtain ⟨d, -, rfl, slots, rfl, -⟩ := of_activate h
    refine ⟨_, rfl, fun level => ?_⟩
    rw [Store.ancestor?_succ, Store.parent?, Store.frame_withFrame, if_pos rfl]
    rfl
  case stored =>
    intro f id n target d k v hn hk hchild hm hkey hv hd hself
    refine ⟨s.insertEntry d k v, ?_, ?_⟩
    · rw [perform_of_node hn, hk]
      exact completely_apply (assignMap_apply hchild hm hkey hv)
    · rw [Store.dict_insertEntry hd]
      exact Dict.get?_insert_self hself
  case sent =>
    intro f id n ch v hn hk hc hv
    rw [perform_of_node hn, hk]
    show Op.read (p.send f id) s = _
    rw [Op.read, send_apply hc hv]

end Program

end Flowgraph
