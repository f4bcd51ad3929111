import Flowgraph.Proofs.Assign.Sites

/-!
# Reading several values

Several operands are read one after the other, up to the first that is not there. Variables of
consecutive slots are read as these slots are.
-/

namespace Flowgraph

namespace Look

variable {α β : Type} {look : α → Look β} {l : List α} {s : Store}

/-- What is looked up in another store is the same if each part of the search finds the same. -/
lemma bind_congr {t : Store} {first : Look α} {next : α → Look β} (h : first t = first s)
    (hnext : ∀ a, next a t = next a s) : (first >>= next) t = (first >>= next) s := by
  change (first t >>= fun a => next a t) = (first s >>= fun a => next a s)
  rw [h, funext hnext]

lemma read_congr {t : Store} {next : Store → Look β} (h : next t t = next s s) :
    (MonadReader.read >>= next) t = (MonadReader.read >>= next) s := h

/-- All that is looked for is found. -/
lemma mapM_ok {bs : List β} (h : List.Forall₂ (fun a b => look a s = .ok b) l bs) :
    (l.mapM look : Look (List β)) s = .ok bs := by
  induction h with
  | nil => rfl
  | cons ha _ ih =>
    rw [List.mapM_cons]
    refine (bind_ok ha).trans ((bind_ok ih).trans rfl)

lemma forall₂_of_mapM {bs : List β} (h : (l.mapM look : Look (List β)) s = .ok bs) :
    List.Forall₂ (fun a b => look a s = .ok b) l bs := by
  induction l generalizing bs with
  | nil =>
    cases h
    exact .nil
  | cons a l ih =>
    rw [List.mapM_cons] at h
    obtain ⟨b, hb, h⟩ := of_bind h
    obtain ⟨bs, hbs, h⟩ := of_bind h
    cases h
    exact .cons hb (ih hbs)

/-- To look for all and then change what was found is to look for each thing that is so changed. -/
lemma mapM_map {γ : Type} {look' : α → Look γ} {change : β → γ}
    (h : ∀ a ∈ l, look' a s = (look a s).map change) :
    (l.mapM look' : Look (List γ)) s = ((l.mapM look : Look (List β)) s).map (List.map change) := by
  induction l with
  | nil => rfl
  | cons a l ih =>
    have ha := h a List.mem_cons_self
    have hrest := ih fun a' ha' => h a' (List.mem_cons_of_mem a ha')
    rw [List.mapM_cons, List.mapM_cons]
    change (look' a s >>= fun c => l.mapM look' s >>= fun cs => _) =
      (look a s >>= fun b => l.mapM look s >>= fun bs => _).map _
    rw [ha, hrest]
    cases look a s with
    | error e => rfl
    | ok b => cases (l.mapM look : Look (List β)) s <;> rfl

/-- The search ends with the first that is not found. -/
lemma mapM_error {before after : List α} {c : α} {e : Stop}
    (hbefore : ∀ a ∈ before, ∃ b, look a s = .ok b) (hc : look c s = .error e) :
    ((before ++ c :: after).mapM look : Look (List β)) s = .error e := by
  induction before with
  | nil =>
    rw [List.nil_append, List.mapM_cons]
    change (look c s >>= fun _ => _) = _
    rw [hc]
    rfl
  | cons a before ih =>
    obtain ⟨b, hb⟩ := hbefore a List.mem_cons_self
    have hrest := ih fun a' ha' => hbefore a' (List.mem_cons_of_mem a ha')
    rw [List.cons_append, List.mapM_cons]
    refine (bind_ok hb).trans ?_
    change ((before ++ c :: after).mapM look s >>= fun _ => _) = _
    rw [hrest]
    rfl

/-- Of several searches the first that fails can be told. -/
lemma exists_first_error {a : α} (ha : a ∈ l) {e : Stop} (he : look a s = .error e) :
    ∃ before c after e', l = before ++ c :: after ∧
      (∀ b ∈ before, ∃ v, look b s = .ok v) ∧ look c s = .error e' := by
  induction l with
  | nil => cases ha
  | cons c l ih =>
    cases hc : look c s with
    | error e' => exact ⟨[], c, l, e', rfl, fun _ hb => (List.not_mem_nil hb).elim, hc⟩
    | ok v =>
      have hal : a ∈ l := by
        refine (List.mem_cons.mp ha).resolve_left ?_
        rintro rfl
        rw [hc] at he
        cases he
      obtain ⟨before, c', after, e', rfl, hbefore, he'⟩ := ih hal
      refine ⟨c :: before, c', after, e', rfl, fun b hb => ?_, he'⟩
      rcases List.mem_cons.mp hb with rfl | hb
      · exact ⟨v, hc⟩
      · exact hbefore b hb

end Look

namespace Store

variable {s : Store} {f : FrameId} {start count : Nat}

/-- Consecutive slots that are there are read one after the other. -/
lemma slot?_of_range? {vs : List Value} (h : s.range? f start count = some vs) :
    vs.length = count ∧ ∀ j < count, s.slot? f (start + j) = vs[j]? := by
  rw [range?] at h
  split_ifs at h with hle
  cases h
  have hsize : start + count ≤ (s.slots f).size := hle
  have hlen : ((s.slots f).extract start (start + count)).size = count := by
    rw [Array.size_extract]
    omega
  refine ⟨by rw [Array.length_toList, hlen], fun j hj => ?_⟩
  rw [Array.getElem?_toList, Array.getElem?_extract, if_pos (by omega)]
  rfl

end Store

/-! ### Variables -/

namespace Program

variable {p : Program} {s : Store} {f g : FrameId} {id c d : NodeId} {n : Node} {i level : Nat}
  {v : Value} {cs : List NodeId} {vs : List Value}

/-- What a node is read as depends on nothing but frames. -/
lemma value_of_frames {t : Store} (h : t.frames = s.frames) : p.value f id t = p.value f id s := by
  refine Look.bind_congr rfl fun n => ?_
  split_ifs
  · rfl
  · have howner : frameAt f n.level id t = frameAt f n.level id s := by
      rw [frameAt, frameAt,
        ((Store.Spares.refl (fun _ _ => True) s).of_frames h).ancestor? f n.level]
    refine Look.bind_congr howner fun owner => ?_
    cases n.slot with
    | none => rfl
    | some slot =>
      have hslot : t.slot? owner slot = s.slot? owner slot := by
        rw [Store.slot?, Store.slots, Store.frame, h]
        rfl
      refine Look.read_congr ?_
      rw [hslot]
      cases s.slot? owner slot <;> rfl

/-- A node stands for a slot at a level: what it is read as is what the slot holds. -/
def Variable (p : Program) (d : NodeId) (i level : Nat) : Prop :=
  ∃ n, p.node d = .ok n ∧ ¬(n.kind = .basicLit ∨ n.kind = .funcDecl) ∧ n.slot = some i ∧
    n.level = level

/-- A node stands for a slot that is there. -/
def VariableAt (p : Program) (s : Store) (f : FrameId) (d : NodeId) (l : Site) : Prop :=
  ∃ level, p.Variable d l.2 level ∧ s.ancestor? f level = some l.1 ∧ l.2 < s.frameSize l.1

lemma VariableAt.targets {l : Site} (h : p.VariableAt s f d l) : p.Targets s f d (some l) := by
  obtain ⟨level, ⟨n, hn, -, hi, rfl⟩, ho, hlt⟩ := h
  exact .slot hn hi ho hlt

lemma Variable.value_ok (h : p.Variable d i level) (hg : s.ancestor? f level = some g)
    (hv : s.slot? g i = some v) : p.value f d s = .ok v := by
  obtain ⟨n, hn, hk, hi, rfl⟩ := h
  refine (Look.bind_ok hn).trans ?_
  rw [if_neg hk]
  have howner : frameAt f n.level d s = .ok g := by rw [frameAt, hg]
  refine (Look.bind_ok howner).trans ?_
  rw [hi]
  refine (Look.bind_ok rfl).trans ?_
  rw [hv]
  rfl

/-- A variable whose frame is not there cannot be read. -/
lemma Variable.value_tooDeep (h : p.Variable d i level) (ho : s.ancestor? f level = none) :
    p.value f d s = .error (.malformed d .levelTooDeep) := by
  obtain ⟨n, hn, hk, hi, rfl⟩ := h
  refine (Look.bind_ok hn).trans ?_
  rw [if_neg hk]
  change (frameAt f n.level d s >>= fun _ => _) = _
  rw [frameAt, ho]
  rfl

/-- A variable whose slot is not there cannot be read. -/
lemma Variable.value_beyond (h : p.Variable d i level) (ho : s.ancestor? f level = some g)
    (hv : s.slot? g i = none) : p.value f d s = .error (.malformed d .slotBeyondFrame) := by
  obtain ⟨n, hn, hk, hi, rfl⟩ := h
  refine (Look.bind_ok hn).trans ?_
  rw [if_neg hk]
  have howner : frameAt f n.level d s = .ok g := by rw [frameAt, ho]
  refine (Look.bind_ok howner).trans ?_
  rw [hi]
  refine (Look.bind_ok rfl).trans ?_
  rw [hv]
  rfl

/-- A variable whose frame or slot is not there cannot be read. -/
lemma Variable.value_error (h : p.Variable d i level)
    (hg : ∀ g, s.ancestor? f level = some g → s.slot? g i = none) :
    ∃ e, p.value f d s = .error (.fault e) := by
  cases ho : s.ancestor? f level with
  | none => exact ⟨_, h.value_tooDeep ho⟩
  | some g => exact ⟨_, h.value_beyond ho (hg g ho)⟩

/-- A variable that cannot be read raises a fault. -/
lemma Variable.fault (h : p.Variable d i level) {e : Stop} (he : p.value f d s = .error e) :
    ∃ e', e = .fault e' := by
  have hmissing : ∀ g, s.ancestor? f level = some g → s.slot? g i = none := by
    intro g hg
    cases hv : s.slot? g i with
    | none => rfl
    | some v =>
      rw [h.value_ok hg hv] at he
      cases he
  obtain ⟨e', he'⟩ := h.value_error hmissing
  rw [he'] at he
  cases he
  exact ⟨e', rfl⟩

lemma VariableAt.value {l : Site} (h : p.VariableAt s f d l) :
    ∃ v, s.slot? l.1 l.2 = some v ∧ p.value f d s = .ok v := by
  obtain ⟨level, hd, ho, hlt⟩ := h
  exact ⟨_, Array.getElem?_eq_getElem hlt, hd.value_ok ho (Array.getElem?_eq_getElem hlt)⟩

/-! ### Variables of consecutive slots -/

variable {b : Nat}

lemma slotsAt_ok (hg : s.ancestor? f level = some g) {count : Nat}
    (hvs : s.range? g b count = some vs) (id : NodeId) :
    slotsAt f level b count id s = .ok vs := by
  have howner : frameAt f level id s = .ok g := by rw [frameAt, hg]
  refine (Look.bind_ok howner).trans ((Look.bind_ok rfl).trans ?_)
  rw [hvs]
  rfl

lemma slotsAt_error {count : Nat}
    (h : ∀ g, s.ancestor? f level = some g → s.frameSize g < b + count) (id : NodeId) :
    ∃ e, slotsAt f level b count id s = .error (.fault e) := by
  cases hg : s.ancestor? f level with
  | none =>
    refine ⟨.malformed id .levelTooDeep, ?_⟩
    change (frameAt f level id s >>= fun _ => _) = _
    rw [frameAt, hg]
    rfl
  | some g =>
    have howner : frameAt f level id s = .ok g := by rw [frameAt, hg]
    refine ⟨.malformed id .resultSlotsBeyondFrame,
      (Look.bind_ok howner).trans ((Look.bind_ok rfl).trans ?_)⟩
    rw [Store.range?, if_neg (Nat.not_le_of_lt (h g hg))]
    rfl

/-- Variables of consecutive slots that are there are read as what the slots hold. -/
lemma mapM_variables (hg : s.ancestor? f level = some g)
    (hvs : s.range? g b cs.length = some vs)
    (h : ∀ j c, cs[j]? = some c → p.Variable c (b + j) level) :
    (cs.mapM (p.value f) : Look (List Value)) s = .ok vs := by
  obtain ⟨hlen, hslots⟩ := Store.slot?_of_range? hvs
  refine Look.mapM_ok (List.forall₂_iff_get.mpr ⟨hlen.symm, fun j hj hj' => ?_⟩)
  refine (h j _ (List.getElem?_eq_getElem hj)).value_ok hg ?_
  rw [hslots j hj]
  exact List.getElem?_eq_getElem hj'

/-- Variables of consecutive slots are not all read when one of the slots is missing. -/
lemma mapM_variables_error (hpos : 0 < cs.length)
    (hg : ∀ g, s.ancestor? f level = some g → s.frameSize g < b + cs.length)
    (h : ∀ j c, cs[j]? = some c → p.Variable c (b + j) level) :
    ∃ e, (cs.mapM (p.value f) : Look (List Value)) s = .error (.fault e) := by
  have hlast : cs.length - 1 < cs.length := by omega
  have hvar := h _ _ (List.getElem?_eq_getElem hlast)
  obtain ⟨e, he⟩ := hvar.value_error (f := f) (s := s) fun g hg' => by
    have hsize := hg g hg'
    exact Array.getElem?_eq_none (by rw [Store.frameSize] at hsize; omega)
  obtain ⟨before, c, after, e', hcs, hbefore, he'⟩ :=
    Look.exists_first_error (List.getElem_mem hlast) he
  have hc : cs[before.length]? = some c := by
    rw [hcs, List.getElem?_append_right (Nat.le_refl _), Nat.sub_self]
    rfl
  obtain ⟨e', rfl⟩ := (h _ _ hc).fault he'
  refine ⟨e', ?_⟩
  rw [hcs]
  exact Look.mapM_error hbefore he'

/-- An expression of a single value gives this value and nothing else. -/
lemma values_single {c : NodeId} (h : ∀ n, p.node c = .ok n → n.slot = none ∨ n.width ≤ 1)
    (f : FrameId) (s : Store) : p.values f c s = (p.value f c s).map fun v => [v] := by
  cases hn : p.node c with
  | error e =>
    have hvalue : p.value f c s = .error e := by
      change ((p.node c : Look Node) s >>= fun _ => _) = _
      rw [show (p.node c : Look Node) s = .error e from hn]
      rfl
    rw [hvalue]
    change ((p.node c : Look Node) s >>= fun _ => _) = _
    rw [show (p.node c : Look Node) s = .error e from hn]
    rfl
  | ok n =>
    have hvalues : p.values f c s = (do return [← p.value f c] : Look (List Value)) s := by
      refine (Look.bind_ok hn).trans ?_
      rcases h n hn with hslot | hwidth
      · rw [hslot]
      · cases hs : n.slot with
        | none => rfl
        | some slot =>
          dsimp only
          rw [if_neg (by omega)]
    rw [hvalues]
    change (p.value f c s >>= fun v => _) = _
    cases p.value f c s <;> rfl

/-- Expressions of a single value each give their values. -/
lemma allValues_single (h : ∀ c ∈ cs, ∀ n, p.node c = .ok n → n.slot = none ∨ n.width ≤ 1)
    (f : FrameId) (s : Store) :
    p.allValues f cs s = (cs.mapM (p.value f) : Look (List Value)) s := by
  have hall : (cs.mapM (p.values f) : Look (List (List Value))) s =
      ((cs.mapM (p.value f) : Look (List Value)) s).map fun vs => vs.map fun v => [v] :=
    Look.mapM_map fun c hc => values_single (h c hc) f s
  change (cs.mapM (p.values f) s >>= fun vss => _) = _
  rw [hall]
  cases (cs.mapM (p.value f) : Look (List Value)) s with
  | error e => rfl
  | ok vs =>
    change Except.ok (vs.map fun v => [v]).flatten = _
    rw [← List.flatMap_def, List.flatMap_singleton']

end Program

end Flowgraph
