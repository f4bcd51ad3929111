import Mathlib.Tactic.Common
import Flowgraph.Proofs.Maps.Changes
import Flowgraph.Proofs.Pointers.Copies
import Flowgraph.Proofs.Zeros.Uses

/-!
# What moves do to dictionaries

An assignment to a map puts a value under a key, and the literal of a map puts all its pairs into a
new dictionary. Nothing else that chains do changes a dictionary. So when these changes are logged,
the log tells what all dictionaries have become.
-/

namespace Flowgraph

open Named

/-! ### Logs -/

/-- What has been done to dictionaries, the latest first. -/
abbrev Log := List (DictId × Dict.Change)

namespace Log

variable {L : Log} {d e : DictId} {c : Dict.Change} {H : List Dict.Change}

/-- What has been done to one dictionary. -/
def of (L : Log) (d : DictId) : List Dict.Change :=
  L.filterMap fun e => if e.1 = d then some e.2 else none

/-- What is done to one dictionary, as a log. -/
def on (d : DictId) (H : List Dict.Change) : Log := H.map fun c => (d, c)

lemma of_append (L' L : Log) (d : DictId) : of (L' ++ L) d = of L' d ++ of L d :=
  List.filterMap_append

lemma of_on (d e : DictId) (H : List Dict.Change) : of (on d H) e = if d = e then H else [] := by
  rw [of, on, List.filterMap_map]
  split_ifs with h
  · subst h
    simp
  · simp [h]

end Log

namespace Store

variable {s t : Store} {d e : DictId} {k v : Value} {L : Log}

/-- The name that the next dictionary gets. -/
def nextDict (s : Store) : DictId := ⟨s.dicts.size⟩

lemma dict_newDict (D : Dict) (e : DictId) :
    (s.newDict D).2.dict e = if s.nextDict = e then D else s.dict e := by
  rw [dict, dict, newDict, Array.getElem?_push]
  by_cases he : s.nextDict = e
  · subst he
    rw [if_pos rfl, if_pos (show s.nextDict.index = s.dicts.size from rfl)]
    rfl
  · rw [if_neg he, if_neg fun h => he (congrArg DictId.mk h.symm)]

lemma dict_nextDict (s : Store) : s.dict s.nextDict = {} := by
  rw [dict, nextDict, Array.getElem?_eq_none (Nat.le_refl _)]
  rfl

/-- What is put into a new dictionary might as well have been there from the beginning. -/
lemma insertEntry_newDict (s : Store) (D : Dict) (f : FrameId) (i : Nat) (w k v : Value) :
    ((s.newDict D).2.setSlot f i w).insertEntry s.nextDict k v =
      (s.newDict (D.insert k v)).2.setSlot f i w := by
  have hmodify : (s.dicts.push D).modify s.dicts.size (fun content => content.insert k v) =
      s.dicts.push (D.insert k v) := by
    refine Array.ext_getElem? fun j => ?_
    rw [Array.getElem?_modify, Array.getElem?_push, Array.getElem?_push]
    by_cases hj : j = s.dicts.size
    · simp [hj]
    · simp [hj, Ne.symm hj]
  simp only [Store.insertEntry, setSlot, newDict, nextDict, hmodify]

/-- A log tells what all dictionaries have become. -/
def Records (L : Log) (s : Store) : Prop := ∀ d, s.dict d = Dict.ofChanges (Log.of L d)

namespace Records

variable (h : s.Records L)

include h

lemma of_dicts (ht : t.dicts = s.dicts) : t.Records L := fun d => by
  rw [dict, ht]
  exact h d

lemma newMap : (s.newDict {}).2.Records L := fun e => by
  rw [dict_newDict]
  split_ifs with he
  · rw [← h e, ← he, dict_nextDict]
  · exact h e

lemma newDict (pairs : List (Value × Value)) :
    (s.newDict (pairs.foldl (fun (D : Dict) (k, v) => D.insert k v) {})).2.Records
      (Log.on s.nextDict (Dict.puts pairs) ++ L) := fun e => by
  rw [dict_newDict, Log.of_append, Log.of_on]
  split_ifs with he
  · have hempty : {} = Dict.ofChanges (Log.of L e) := by rw [← h e, ← he, dict_nextDict]
    rw [hempty]
    exact Dict.foldl_insert pairs _
  · exact h e

lemma insertEntry (hd : d.index < s.dicts.size) (k v : Value) :
    (s.insertEntry d k v).Records (Log.on d [.put k v] ++ L) := fun e => by
  rw [Store.insertEntry, dict_modify (.inl hd), Log.of_append, Log.of_on]
  split_ifs
  · exact congrArg (Dict.insert · k v) (h e)
  · exact h e

lemma eraseEntry (d : DictId) (k : Value) :
    (s.eraseEntry d k).Records (Log.on d [.delete k] ++ L) := fun e => by
  rw [Store.eraseEntry, dict_modify (.inr rfl), Log.of_append, Log.of_on]
  split_ifs
  · exact congrArg (Dict.erase · k) (h e)
  · exact h e

end Records

lemma durable_records (L : Log) : Durable (Records L) where
  plain _ _ := trivial
  fresh _ _ := ⟨trivial, trivial⟩
  element _ _ _ _ _ _ := trivial
  entry _ _ _ _ _ := ⟨trivial, trivial⟩
  newBlock _ _ hs _ := hs.of_dicts rfl
  newChannel _ _ hs := hs.of_dicts rfl
  setSlot _ _ _ _ hs := hs.of_dicts rfl
  withFrame _ _ _ hs := hs.of_dicts rfl

end Store

/-! ### Operations -/

namespace Program

variable {p : Program} {s : Store} {f : FrameId} {id : NodeId} {n : Node} {L : Log}

/-- The map, the key and the value of an assignment to a map. -/
def assignment (p : Program) (f : FrameId) (id : NodeId) : Look (Value × Value × Value) := do
  let target ← p.child id 0
  let m ← p.operand f target 0
  let k ← p.operand f target 1
  let v ← p.operand f id 1
  return (m, k, v)

/-- The pairs of the literal of a map. -/
def pairs (p : Program) (f : FrameId) (n : Node) : Look (List (Value × Value)) :=
  (n.children.drop 1).mapM (p.pair f)

/-- What the operation of a node does to dictionaries. -/
def logged (p : Program) (f : FrameId) (id : NodeId) (s : Store) : Log :=
  match p.node id with
  | .error _ => []
  | .ok n => match n.kind with
    | .assignMap => match p.assignment f id s with
      | .ok (.map d, k, v) => Log.on d [.put k v]
      | _ => []
    | .mapLit => match p.pairs f n s with
      | .ok pairs => Log.on s.nextDict (Dict.puts pairs)
      | .error _ => []
    | _ => []

lemma logged_of_kind (h : ∀ n, p.node id = .ok n → n.kind ≠ .assignMap ∧ n.kind ≠ .mapLit) :
    p.logged f id s = [] := by
  rw [logged]
  cases hn : p.node id with
  | error e => rfl
  | ok n =>
    obtain ⟨hassign, hlit⟩ := h n hn
    dsimp only
    split
    · exact absurd ‹_› hassign
    · exact absurd ‹_› hlit
    · rfl

/-- Operations other than assignments to maps and literals of maps leave dictionaries alone. -/
lemma keeps_records (h : ∀ n, p.node id = .ok n → n.kind ≠ .assignMap ∧ n.kind ≠ .mapLit) :
    Op.Keeps (Store.Records L) (fun _ => True) (p.perform f id) fun _ => True := by
  refine keeps_perform_of_regime (Store.durable_records L) (fun n hn => ?_)
    fun _ _ _ _ _ _ _ hs _ _ => hs.of_dicts rfl
  obtain ⟨hassign, hlit⟩ := h n hn
  exact regime_of_durable (Store.durable_records L) hn (fun _ _ hs => hs.newMap) hlit hassign
    (fun _ _ _ hs => hs.of_dicts rfl) fun _ _ _ hs => hs.of_dicts rfl

lemma assignMap_eq (p : Program) (f : FrameId) (id : NodeId) :
    p.assignMap f id = (do
      let (m, k, v) ← (liftM (p.assignment f id) : Op _)
      match ← m.asDict "map assignment" with
      | some d => modify fun s => s.insertEntry d k v
      | none => throw (.fault .nilMap)) := by
  simp only [assignMap, assignment, Op.lift_bind, Op.lift_lift, bind_assoc]
  rfl

lemma mapLit_eq (hn : p.node id = .ok n) :
    p.mapLit f id = (do
      let pairs ← (liftM (p.pairs f n) : Op _)
      let content := pairs.foldl (fun (D : Dict) (k, v) => D.insert k v) {}
      p.setOwn f id (.map (← Op.create fun s => s.newDict content))) := by
  rw [mapLit, hn]
  rfl

/-- The map of an assignment has been there before. -/
lemma index_lt_of_assignment {d : DictId} {k v : Value} (hp : p.Loaded) (hs : s.Closed)
    (h : p.assignment f id s = .ok (.map d, k, v)) : d.index < s.dicts.size := by
  have hgives : Look.Gives (fun t => t = s) (fun _ => True) (p.assignment f id)
      fun a => Within s.size a.1 := by
    refine .bind (.lift (ends_any _)) fun target _ => ?_
    refine .bind (.bind (.lift (ends_any _)) fun c _ => gives_within hp hs f c) fun m hm => ?_
    exact .bind (Look.gives_any _) fun k _ => .bind (Look.gives_any _) fun v _ => .pure hm
  have hwithin := hgives s rfl
  rw [h] at hwithin
  exact hwithin .dicts d.index ⟨rfl, rfl⟩

variable (hL : s.Records L)

include hL

lemma leads_assignMap_records (hp : p.Loaded) (hs : s.Closed) (hn : p.node id = .ok n)
    (hk : n.kind = .assignMap) :
    Op.Leads s (Store.Records (p.logged f id s ++ L)) (p.assignMap f id) fun _ => True := by
  simp only [logged, hn, hk]
  rw [assignMap_eq, Op.Leads, Op.look_bind_apply]
  cases ha : p.assignment f id s with
  | error e => exact hL
  | ok a =>
    obtain ⟨m, k, v⟩ := a
    cases m with
    | map d => exact ⟨hL.insertEntry (index_lt_of_assignment hp hs ha) k v, trivial⟩
    | _ => exact hL

lemma leads_mapLit_records (hn : p.node id = .ok n) (hk : n.kind = .mapLit) :
    Op.Leads s (Store.Records (p.logged f id s ++ L)) (p.mapLit f id) fun _ => True := by
  simp only [logged, hn, hk]
  rw [mapLit_eq hn, Op.Leads, Op.look_bind_apply]
  cases hpairs : p.pairs f n s with
  | error e => exact hL
  | ok pairs => exact (keeps_setOwn fun t i ht => ht.of_dicts rfl).leads (hL.newDict pairs)

/-- What is logged of an operation is all that it does to dictionaries. -/
theorem leads_perform_records (hp : p.Loaded) (hs : s.Closed) (f : FrameId) (id : NodeId) :
    Op.Leads s (Store.Records (p.logged f id s ++ L)) (p.perform f id) fun _ => True := by
  by_cases hkind : ∃ n, p.node id = .ok n ∧ (n.kind = .assignMap ∨ n.kind = .mapLit)
  · obtain ⟨n, hn, hk⟩ := hkind
    rw [Op.Leads, perform_of_node hn]
    rcases hk with hk | hk <;> rw [hk]
    · exact (leads_assignMap_records hL hp hs hn hk).bind_pure fun _ _ => trivial
    · exact (leads_mapLit_records hL hn hk).bind_pure fun _ _ => trivial
  · have hother : ∀ n, p.node id = .ok n → n.kind ≠ .assignMap ∧ n.kind ≠ .mapLit := fun n hn =>
      ⟨fun hk => hkind ⟨n, hn, .inl hk⟩, fun hk => hkind ⟨n, hn, .inr hk⟩⟩
    rw [logged_of_kind hother]
    exact (keeps_records hother).leads hL

end Program

/-! ### Chains -/

namespace Chain

variable {p : Program} {s : Store} {c : Chain} {step : Op Chain} {L : Log}

/-- What a chain does next to dictionaries. -/
def logged (p : Program) (c : Chain) (s : Store) : Log :=
  match c.stage, c.walks with
  | .walk, ⟨a, some id, _⟩ :: _ => p.logged a.frame id s
  | _, _ => []

lemma logged_of_stage (h : c.stage ≠ .walk) : c.logged p s = [] := by
  rw [logged]
  split
  · exact absurd ‹_› h
  · rfl

lemma leads_walk_records (hL : s.Records L) (hp : p.Loaded) (hs : s.Closed)
    (hw : c.stage = .walk) :
    Op.Leads s (Store.Records (c.logged p s ++ L)) (c.walk p) fun _ => True := by
  simp only [walk]
  split
  case h_1 hwalks =>
    simp only [logged, hw, hwalks]
    exact .pure hL trivial
  case h_2 w rest hwalks =>
    obtain ⟨a, node, depth⟩ := w
    cases node with
    | none =>
      simp only [logged, hw, hwalks]
      exact .look_bind (ends_any _) hL fun vs _ => .pure hL trivial
    | some id =>
      simp only [logged, hw, hwalks]
      exact (Program.leads_perform_records hL hp hs a.frame id).bind_pure fun _ _ => trivial

/-- What is logged of a chain is all that it does by itself to dictionaries. -/
theorem leads_advance_records (hL : s.Records L) (hp : p.Loaded) (hs : s.Closed) (hfit : c.Fits p)
    (ha : c.advance p = some step) :
    Op.Leads s (Store.Records (c.logged p s ++ L)) step fun _ => True := by
  have D := Store.durable_records L
  have hdone : ∀ {x : Op Chain} {P : Chain → Prop}, c.stage ≠ .walk →
      Op.Keeps (Store.Records L) (fun _ => True) x P →
      Op.Leads s (Store.Records (c.logged p s ++ L)) x fun _ => True := by
    intro x P hstage hx
    rw [logged_of_stage hstage]
    exact (hx.leads hL).mono (fun _ ht => ht) fun _ _ => trivial
  simp only [advance] at ha
  split at ha <;> cases ha
  case h_1 hw => exact leads_walk_records hL hp hs hw
  case h_2 hst => exact hdone (by simp [hst]) keeps_follow
  case h_3 callee receiver args hst =>
    exact hdone (by simp [hst])
      (P := fun _ => True)
      (.bind (Program.keeps_bindValues D callee receiver args) fun _ _ => .pure trivial)
  case h_4 hst => exact hdone (by simp [hst]) (keeps_start (fun _ _ hs => hs.of_dicts rfl) _ _)
  case h_5 hst => exact hdone (by simp [hst]) (keeps_deliver D _)
  case h_6 hst => exact hdone (by simp [hst]) (keeps_received D hfit hst)
  case h_7 hst => exact hdone (P := fun _ => True) (by simp [hst]) (.throw trivial)

end Chain

/-! ### Machines -/

namespace Machine

variable {m : Machine} {mv : Move} {L : Log}

/-- What a move does to dictionaries. -/
def logged (m : Machine) : Move → Log
  | .run x => match m.chain? x with
    | some c => c.logged m.program m.store
    | none => []
  | _ => []

lemma logged_run {x : ChainId} {c : Chain} (hc : m.chain? x = some c) :
    m.logged (.run x) = c.logged m.program m.store := by
  rw [logged, hc]

/-- Protocols do nothing to dictionaries. -/
lemma dicts_proceeds {m' : Machine} (h : m.Proceeds mv m') : m'.store.dicts = m.store.dicts := by
  rcases h.store with hs | ⟨ch, v, -, hs⟩ | ⟨ch, hs⟩ <;> rw [hs] <;> rfl

/-- A chain that does something to dictionaries makes a step by itself. -/
lemma logged_of_not_advances
    (h : ∀ x c step, mv = .run x → m.chain? x = some c → c.advance m.program ≠ some step) :
    m.logged mv = [] := by
  cases mv with
  | pass microseconds => rfl
  | seeClosed x => rfl
  | run x =>
    rw [logged]
    cases hc : m.chain? x with
    | none => rfl
    | some c =>
      refine Chain.logged_of_stage fun hw => h x c (c.walk m.program) rfl hc ?_
      rw [Chain.advance, hw]

/-- What is logged of a move is all that it does to dictionaries. -/
theorem records_step (hL : m.store.Records L) (hp : m.program.Loaded) (hs : m.store.Closed)
    (hfit : m.Fits) (mv : Move) : (m.step mv).store.Records (m.logged mv ++ L) := by
  by_cases hadvance : ∃ x c step, mv = .run x ∧ m.chain? x = some c ∧
      c.advance m.program = some step
  · obtain ⟨x, c, step, rfl, hc, ha⟩ := hadvance
    have hleads := Chain.leads_advance_records hL hp hs (hfit x c hc) ha
    rw [logged_run hc, Machine.step, run_of_advance hc ha]
    exact hleads.stepChain
  · have hnone : ∀ x c step, mv = .run x → m.chain? x = some c →
        c.advance m.program ≠ some step := fun x c step hmv hc ha =>
      hadvance ⟨x, c, step, hmv, hc, ha⟩
    rcases m.step_cases mv with hm | ⟨x, c, step, hmv, hc, ha, -⟩
    · rw [logged_of_not_advances hnone]
      exact hL.of_dicts (dicts_proceeds hm)
    · exact absurd ha (hnone x c step hmv hc)

end Machine

end Flowgraph
