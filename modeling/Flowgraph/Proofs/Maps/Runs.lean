import Mathlib.Tactic.Common
import Flowgraph.Proofs.Apart.Rest
import Flowgraph.Proofs.Maps.Moves

/-!
# What is done to maps while a host uses a machine

Chains write to maps, and so does the host, which may also delete keys. All of this is logged, the
latest first. Whatever the host does, the log tells what all dictionaries have become.
-/

namespace Flowgraph

open Named

/-! ### Changes of dictionaries -/

lemma Dict.within_iff_holds {n : Table → Nat} {D : Dict} : Within n D ↔ D.Holds (Within n) := by
  constructor
  · intro hD e he
    exact ⟨fun T j hj => hD T j ⟨e, he, .inl hj⟩, fun T j hj => hD T j ⟨e, he, .inr hj⟩⟩
  · rintro hD T j ⟨e, he, hj | hj⟩
    · exact (hD e he).1 T j hj
    · exact (hD e he).2 T j hj

namespace Store

variable {s : Store} {d : DictId} {k v : Value}

/-- A dictionary may come to hold what has been given a name. -/
lemma Closed.modifyDict (h : s.Closed) (d : DictId) {change : Dict → Dict}
    (hchange : ∀ D : Dict, D.Holds (Within s.size) → (change D).Holds (Within s.size)) :
    ({ s with dicts := s.dicts.modify d.index change } : Store).Closed := by
  have hsize : ({ s with dicts := s.dicts.modify d.index change } : Store).size = s.size := by
    funext T
    cases T with
    | dicts => exact Array.size_modify
    | _ => rfl
  constructor
  case anchored => exact h.anchored
  case frames => exact hsize ▸ h.frames
  case blocks => exact hsize ▸ h.blocks
  case channels => exact hsize ▸ h.channels
  case dicts =>
    rw [hsize]
    have hold : ∀ D ∈ s.dicts, Within s.size D := fun D hD T j hj => h.dicts T j ⟨D, hD, hj⟩
    rintro T j ⟨D, hmem, hj⟩
    obtain hD | ⟨D', hD', rfl⟩ := mem_or_of_mem_modify hmem
    · exact hold D hD T j hj
    · exact Dict.within_iff_holds.mpr (hchange D' (Dict.within_iff_holds.mp (hold D' hD'))) T j hj

lemma Closed.insertEntry (h : s.Closed) (d : DictId) (hk : Within s.size k)
    (hv : Within s.size v) : (s.insertEntry d k v).Closed :=
  h.modifyDict d fun _ hD => hD.insert hk hv

lemma Closed.eraseEntry (h : s.Closed) (d : DictId) (k : Value) : (s.eraseEntry d k).Closed :=
  h.modifyDict d fun _ hD e he => hD e (List.mem_of_mem_eraseP he)

lemma grows_eraseEntry (s : Store) (d : DictId) (k : Value) : s.Grows (s.eraseEntry d k) := by
  intro T
  cases T <;> simp [size, Store.eraseEntry]

end Store

/-! ### Logged runs -/

namespace Machine

variable {start m : Machine} {L : Log}

/-- What a machine can become while a host uses it, with all that is done to maps meanwhile. The
host makes moves and begins chains, writes to maps and deletes keys, changes the store in other
ways, and takes the recorded faults. Nothing that it brings mentions names that have not been given
out. -/
inductive Logged (start : Machine) : Log → Machine → Prop
  | start : Logged start [] start
  | move {L : Log} {m : Machine} (h : Logged start L m) (mv : Move) :
    Logged start (m.logged mv ++ L) (m.step mv)
  | host {L : Log} {m : Machine} (h : Logged start L m) {c : Chain} (hc : c.Hosted)
    (hw : Within m.store.size c) : Logged start L (m.addChain c).2
  | put {L : Log} {m : Machine} (h : Logged start L m) {d : DictId} {k v : Value}
    (hd : d.index < m.store.dicts.size) (hk : Within m.store.size k)
    (hv : Within m.store.size v) :
    Logged start ((d, .put k v) :: L) { m with store := m.store.insertEntry d k v }
  | delete {L : Log} {m : Machine} (h : Logged start L m) (d : DictId) (k : Value) :
    Logged start ((d, .delete k) :: L) { m with store := m.store.eraseEntry d k }
  | change {L : Log} {m : Machine} (h : Logged start L m) {s : Store} (hs : m.store.Grows s)
    (hc : m.store.Closed → s.Closed) (hd : ∀ d, s.dict d = m.store.dict d) :
    Logged start L { m with store := s }
  | takeFaults {L : Log} {m : Machine} (h : Logged start L m) : Logged start L m.takeFaults.2

lemma Logged.attains (h : start.Logged L m) : start.Attains m := by
  induction h with
  | start => exact .start
  | move _ mv ih => exact ih.move mv
  | host _ hc hw ih => exact ih.host hc hw
  | put _ hd hk hv ih =>
    exact ih.change (Store.grows_insertEntry _ _ _ _) fun hs => hs.insertEntry _ hk hv
  | delete _ d k ih => exact ih.change (Store.grows_eraseEntry _ d k) fun hs => hs.eraseEntry d k
  | change _ hs hc _ ih => exact ih.change hs hc
  | takeFaults _ ih => exact ih.takeFaults

/-- Whatever a host does, the log tells what all dictionaries have become. -/
theorem Logged.records (h : start.Logged L m) (hkept : start.Kept) (hfit : start.Fits)
    (hempty : start.store.dicts = #[]) : m.store.Records L := by
  induction h with
  | start =>
    intro d
    rw [Store.dict, hempty]
    rfl
  | move h mv ih =>
    have hm := hkept.attains h.attains
    exact records_step ih hm.loaded hm.grounded.store (h.attains.fits hfit) mv
  | host _ _ _ ih | takeFaults _ ih => exact ih.of_dicts rfl
  | put _ hd _ _ ih => exact ih.insertEntry hd _ _
  | delete _ d k ih => exact ih.eraseEntry d k
  | change _ _ _ hd ih => exact fun d => (hd d).trans (ih d)

end Machine

end Flowgraph
