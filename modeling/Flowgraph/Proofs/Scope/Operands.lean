import Mathlib.Tactic.Common
import Flowgraph.Proofs.Scope.Frames

/-!
# Operands in their scopes

Where frames are as their scopes say, every operand can be read and every destination written,
and what is read is known. So operations uphold the description of frames, and never miss a
frame or a slot.
-/

namespace Flowgraph

/-- A stop that is not at an address. -/
def Stop.Sane (e : Stop) : Prop := e.isAddress = false

namespace Layout

variable {L : Layout} {p : Program} {σ : Scopes} {f : FrameId} {S T : Scope}

/-! ### Slots -/

lemma gives_frameAt (hf : σ.of? f = some S) {l : Nat} (hT : L.enclosing S l = some T)
    (id : NodeId) :
    Look.Gives (L.Describes p σ) Stop.Sane (Program.frameAt f l id) fun g => σ.of? g = some T := by
  intro s hs
  obtain ⟨g, hg, hgT⟩ := hs.ancestor hf hT
  rw [Program.frameAt, hg]
  exact hgT

lemma gives_slotsAt (hf : σ.of? f = some S) {l start count : Nat}
    (hT : L.enclosing S l = some T) (hfit : start + count ≤ p.scopeSize T) (id : NodeId) :
    Look.Gives (L.Describes p σ) Stop.Sane (Program.slotsAt f l start count id)
      fun vs => vs.length = count ∧ ∀ v ∈ vs, L.Knows σ v := by
  refine .bind (gives_frameAt hf hT id) fun g hg => .read fun s hs => ?_
  rw [Store.range?, hs.size g T hg, if_pos hfit]
  have hsize : (s.slots g).size = p.scopeSize T := hs.size g T hg
  refine ⟨?_, fun v hv => ?_⟩
  · rw [Array.length_toList, Array.size_extract, hsize]
    omega
  · rw [Array.toList_extract, List.extract_eq_take_drop] at hv
    exact hs.holds.slots g v (Array.mem_def.mpr (List.mem_of_mem_drop (List.mem_of_mem_take hv)))

lemma keeps_setSlot (hf : σ.of? f = some S) {i : Nat} (hi : i < p.scopeSize S) {v : Value}
    (hv : L.Knows σ v) (missing : Stop) :
    Op.Keeps (L.Describes p σ) Stop.Sane (Op.setSlot f i v missing) fun _ => True := by
  refine .inspect fun s hs => ?_
  rw [hs.size f S hf, if_pos hi]
  exact ⟨hs.setSlot f i hv, trivial⟩

lemma keeps_setSlots (hf : σ.of? f = some S) {vs : List Value} (hv : ∀ v ∈ vs, L.Knows σ v)
    (missing : Stop) {start : Nat} (hfit : start + vs.length ≤ p.scopeSize S) :
    Op.Keeps (L.Describes p σ) Stop.Sane (Op.setSlots f start vs missing) fun _ => True := by
  induction vs generalizing start with
  | nil => exact .pure trivial
  | cons v vs ih =>
    rw [List.length_cons] at hfit
    rw [Op.setSlots]
    refine .bind (keeps_setSlot hf (by omega) (hv v List.mem_cons_self) missing) fun _ _ => ?_
    exact ih (fun w hw => hv w (List.mem_cons_of_mem _ hw)) (by omega)

/-! ### Nodes -/

/-- A declaration stands for a top-level function. -/
def Declares (L : Layout) (p : Program) (c : NodeId) : Prop :=
  ∀ m, p.node c = .ok m → m.kind = .funcDecl → L.parent c = none

section Nodes

variable (hL : L.Suits p) (hp : p.Loaded)

include hL hp

/-- A constant that is read is known. A closure is no constant. -/
lemma knows_constant {c : NodeId} {n : Node} (hn : p.node c = .ok n) (hc : L.Declares p c)
    (hk : n.kind = .funcLit → n.slot = none) : L.Knows σ ((p.constant? c).getD .nil) := by
  have hconst := hp c n hn
  simp only [Node.constant] at hconst
  by_cases hd : n.kind = .funcDecl
  · rw [if_pos hd] at hconst
    rw [← Except.ok.inj hconst]
    exact hc n hn hd
  · rw [if_neg hd] at hconst
    split at hconst
    case h_1 l hl =>
      rw [← Except.ok.inj hconst]
      exact knows_plain fun _ _ => by cases l <;> exact Value.noConfusion
    case h_2 decl hpay =>
      have hrefer : n.reference? = some decl := by rw [Node.reference?, hpay]
      rw [← Except.ok.inj hconst]
      refine (hL c n hn).reference (fun hlit => ?_) decl hrefer
      have hslot := ((hL c n hn).literal hlit decl hrefer).1
      simp [hk hlit] at hslot
    case h_3 name hpay =>
      split_ifs at hconst
      rw [← Except.ok.inj hconst]
      exact trivial
    case h_4 =>
      rw [← Except.ok.inj hconst]
      split_ifs <;> exact trivial

lemma gives_value {c : NodeId} (hf : σ.of? f = some (L.scope c)) :
    Look.Gives (L.Describes p σ) Stop.Sane (p.value f c)
      fun v => L.Declares p c → L.Knows σ v := by
  refine .bind (.lift (ends_node (fun _ he => he) p c)) fun n hn => ?_
  obtain ⟨T, hT, hfit⟩ := (hL c n hn).slots
  by_cases hk : n.kind = .basicLit ∨ n.kind = .funcDecl
  · rw [if_pos hk]
    refine .pure fun hc => knows_constant hL hp hn hc fun hlit => ?_
    rcases hk with hk | hk <;> rw [hk] at hlit <;> cases hlit
  · rw [if_neg hk]
    refine .bind (gives_frameAt hf hT c) fun g hg => ?_
    cases hs : n.slot with
    | none => exact .pure fun hc => knows_constant hL hp hn hc fun _ => hs
    | some slot =>
      have hslot := hfit slot hs
      refine .read fun s hs => ?_
      have hlt : slot < (s.slots g).size := by
        have hsize : (s.slots g).size = p.scopeSize T := hs.size g T hg
        omega
      rw [Store.slot?, Array.getElem?_eq_getElem hlt]
      exact fun _ => hs.holds.slots g _ (Array.getElem_mem hlt)

lemma gives_values {c : NodeId} (hf : σ.of? f = some (L.scope c)) :
    Look.Gives (L.Describes p σ) Stop.Sane (p.values f c)
      fun vs => vs.length = p.valueCount c ∧ (L.Declares p c → ∀ v ∈ vs, L.Knows σ v) := by
  refine .bind (.lift (ends_node (fun _ he => he) p c)) fun n hn => ?_
  obtain ⟨T, hT, hfit⟩ := (hL c n hn).slots
  have hone : p.valueCount c = 1 → Look.Gives (L.Describes p σ) Stop.Sane
      (do return [← p.value f c]) fun vs =>
        vs.length = p.valueCount c ∧ (L.Declares p c → ∀ v ∈ vs, L.Knows σ v) := by
    intro hcount
    refine .bind (gives_value hL hp hf) fun v hv => .pure ⟨hcount.symm, fun hc w hw => ?_⟩
    rw [List.mem_singleton.mp hw]
    exact hv hc
  have hcount : p.valueCount c = if n.slot.isSome then max 1 n.width else 1 := by
    rw [Program.valueCount, hn]
  cases hs : n.slot with
  | none =>
    rw [hs] at hcount
    exact hone hcount
  | some slot =>
    rw [hs] at hcount
    replace hcount : p.valueCount c = max 1 n.width := hcount
    dsimp only
    by_cases hw : 1 < n.width
    · rw [if_pos hw]
      have hslot := hfit slot hs
      refine .mono (gives_slotsAt hf hT (by omega) c) fun vs hvs => ⟨?_, fun _ => hvs.2⟩
      rw [hvs.1, hcount]
      omega
    · rw [if_neg hw]
      exact hone (by omega)

lemma gives_allValues {ids : List NodeId} (hf : ∀ c ∈ ids, σ.of? f = some (L.scope c))
    (hd : ∀ c ∈ ids, L.Declares p c) :
    Look.Gives (L.Describes p σ) Stop.Sane (p.allValues f ids)
      fun vs => vs.length = (ids.map p.valueCount).sum ∧ ∀ v ∈ vs, L.Knows σ v := by
  refine .bind (P := fun vss => vss.flatten.length = (ids.map p.valueCount).sum ∧
    ∀ v ∈ vss.flatten, L.Knows σ v) ?_ fun vss hvss => .pure hvss
  induction ids with
  | nil =>
    rw [List.mapM_nil]
    exact .pure ⟨rfl, fun v hv => absurd hv List.not_mem_nil⟩
  | cons c ids ih =>
    have hrest := ih (fun c hc => hf c (List.mem_cons_of_mem _ hc))
      fun c hc => hd c (List.mem_cons_of_mem _ hc)
    rw [List.mapM_cons]
    refine .bind (gives_values hL hp (hf c List.mem_cons_self)) fun vs hvs => ?_
    refine .bind hrest fun vss hvss => .pure ⟨?_, fun v hv => ?_⟩
    · rw [List.flatten_cons, List.length_append, hvs.1, hvss.1, List.map_cons, List.sum_cons]
    · rcases List.mem_append.mp (List.flatten_cons ▸ hv) with hv | hv
      · exact hvs.2 (hd c List.mem_cons_self) v hv
      · exact hvss.2 v hv

end Nodes

/-- Declarations that an operation touches are those of top-level functions. -/
lemma declares_of_touched (hL : L.Suits p) {id c : NodeId} {n : Node} (hn : p.node id = .ok n)
    (hc : c ∈ p.touched id n) : L.Declares p c :=
  fun m hm => (hL id n hn).declaration c hc m (Program.node_eq_ok.mp hm)

/-! ### Writing -/

section Writing

variable (hL : L.Suits p)

include hL

/-- The slots of an operation lie in the frame of its own scope. -/
lemma slot_fits {id : NodeId} {n : Node} (hn : p.node id = .ok n)
    (hk : n.kind.isStructural = false) {slot : Nat} (hs : n.slot = some slot) :
    slot + max 1 n.width ≤ p.scopeSize (L.scope id) := by
  obtain ⟨T, hT, hfit⟩ := (hL id n hn).slots
  rw [(hL id n hn).level hk] at hT
  cases hT
  exact hfit slot hs

lemma keeps_setOwn {id : NodeId} {n : Node} (hn : p.node id = .ok n)
    (hk : n.kind.isStructural = false) (hf : σ.of? f = some (L.scope id)) {v : Value}
    (hv : L.Knows σ v) :
    Op.Keeps (L.Describes p σ) Stop.Sane (p.setOwn f id v) fun _ => True := by
  simp only [Program.setOwn]
  rw [hn]
  refine .bind (P := (· = n)) (.lift rfl) fun m hm => ?_
  subst hm
  cases hs : m.slot with
  | none => exact .throw rfl
  | some slot =>
    have hfit := slot_fits hL hn hk hs
    exact keeps_setSlot hf (by omega) hv _

lemma keeps_assignTo {c : NodeId} (hf : σ.of? f = some (L.scope c)) {v : Value}
    (hv : L.Knows σ v) :
    Op.Keeps (L.Describes p σ) Stop.Sane (p.assignTo f c v) fun _ => True := by
  refine .bind (.lift (ends_node (fun _ he => he) p c)) fun n hn => ?_
  obtain ⟨T, hT, hfit⟩ := (hL c n hn).slots
  cases hs : n.slot with
  | none => exact .pure trivial
  | some slot =>
    have hslot := hfit slot hs
    refine .bind (.look (gives_frameAt hf hT c)) fun g hg => ?_
    exact keeps_setSlot hg (by omega) hv _

lemma keeps_storeResults {id : NodeId} {n : Node} (hn : p.node id = .ok n)
    (hk : n.kind.isStructural = false) (hf : σ.of? f = some (L.scope id)) {vs : List Value}
    (hv : ∀ v ∈ vs, L.Knows σ v) :
    Op.Keeps (L.Describes p σ) Stop.Sane (p.storeResults f id vs) fun _ => True := by
  simp only [Program.storeResults]
  rw [hn]
  refine .bind (P := (· = n)) (.lift rfl) fun m hm => ?_
  subst hm
  cases hs : m.slot with
  | none => exact .pure trivial
  | some slot =>
    have hfit := slot_fits hL hn hk hs
    apply keeps_setSlots hf (fun v hv' => hv v (List.mem_of_mem_take hv')) _
    rw [List.length_take]
    omega

end Writing

/-! ### The regime -/

/-- Known values stay known, whatever is done outside frames. -/
lemma stable_describes (L : Layout) (p : Program) (σ : Scopes) :
    Stable (L.Describes p σ) (L.Knows σ) where
  plain _ hv := knows_plain (Value.ne_func_of_isPlain hv)
  fresh _ _ := ⟨knows_plain fun _ _ => Value.noConfusion, knows_plain fun _ _ => Value.noConfusion⟩
  element _ b v hs _ hv := hs.holds.block b v hv
  entry _ d e hs he := hs.holds.dict d e he
  newBlock _ _ hs he := hs.of_frames rfl (hs.holds.newBlock he)
  newDict _ _ hs _ hd := hs.of_frames rfl (hs.holds.newDict hd)
  insertEntry _ d _ _ hs hk hv := hs.of_frames rfl (hs.holds.insertEntry d hk hv)
  newChannel _ capacity hs := hs.of_frames rfl (hs.holds.newChannel capacity)
  writeLine _ line hs := hs.of_frames rfl (hs.holds.writeLine line)

lemma settable_describes (L : Layout) (p : Program) (σ : Scopes) :
    Settable (L.Describes p σ) (L.Knows σ) :=
  fun _ b i _ hs _ hv => hs.of_frames rfl (hs.holds.setElement b i hv)

/-- Every operation that is performed in a frame of its own scope is under control. -/
lemma regime (hL : L.Suits p) (hp : p.Loaded) {id : NodeId} {n : Node} (hn : p.node id = .ok n)
    (hf : σ.of? f = some (L.scope id)) :
    Regime p f id n (L.Describes p σ) (L.Knows σ) Stop.Sane where
  toSteady := (stable_describes L p σ).toSteady
  node := hn
  tolerant _ he := he
  read c hc := by
    have hfc : σ.of? f = some (L.scope c) := by rw [hf, (hL id n hn).operand c hc]
    exact (gives_value hL hp hfc).mono fun v hv => hv (declares_of_touched hL hn hc)
  readAll c hc := by
    have hfc : σ.of? f = some (L.scope c) := by rw [hf, (hL id n hn).operand c hc]
    exact (gives_values hL hp hfc).mono fun v hv => hv.2 (declares_of_touched hL hn hc)
  readSpread hk source m start hsource hm hslot := by
    have hmem : source ∈ p.touched id n := by
      simp only [Program.touched, hk]
      exact List.mem_of_getLast? hsource
    have hfs : σ.of? f = some (L.scope source) := by rw [hf, (hL id n hn).operand source hmem]
    obtain ⟨T, hT, -⟩ := (hL source m hm).slots
    have hfit := (hL id n hn).spread hk source hsource m (Program.node_eq_ok.mp hm) start hslot T hT
    exact (gives_slotsAt hfs hT hfit source).mono fun vs hvs => hvs.2
  readPosition hk slot hslot s hs := by
    have hfit := (hL id n hn).position hk slot hslot
    have hsize : (s.slots f).size = p.scopeSize (L.scope id) := hs.size f _ hf
    have hlt : slot + 1 < (s.slots f).size := by omega
    rw [Store.slot?, Array.getElem?_eq_getElem hlt]
    exact hs.holds.slots f _ (Array.getElem_mem hlt)
  writeOwn hk v hv := keeps_setOwn hL hn hk hf hv
  writeTo c hc v hv := by
    have hmem : c ∈ p.touched id n := Program.destinations_subset_touched hc
    exact keeps_assignTo hL (by rw [hf, (hL id n hn).operand c hmem]) hv
  writePosition _ slot _ s v hs hv := hs.setSlot f (slot + 1) hv
  print _ := (stable_describes L p σ).writeLine
  writeResults hk := by
    simp only [Program.ret]
    rw [hn]
    refine .bind (P := (· = n)) (.lift rfl) fun m hm => ?_
    subst hm
    have htouched : p.touched id m = m.children := by simp only [Program.touched, hk]
    have hfc : ∀ c ∈ m.children, σ.of? f = some (L.scope c) := fun c hc => by
      rw [hf, (hL id m hn).operand c (htouched ▸ hc)]
    have hd : ∀ c ∈ m.children, L.Declares p c := fun c hc =>
      declares_of_touched hL hn (htouched ▸ hc)
    refine .bind (.look (gives_allValues hL hp hfc hd)) fun vs hvs => ?_
    apply keeps_setSlots hf hvs.2 _
    rw [hvs.1, Nat.zero_add]
    exact (hL id m hn).returned hk
  newMap _ := (stable_describes L p σ).newMap
  newDict _ := (stable_describes L p σ).newDict
  insertEntry _ := (stable_describes L p σ).insertEntry
  close _ _ c hs := hs.of_frames rfl (hs.holds.close c)
  closure hk decl hpay := by
    have hrefer : n.reference? = some decl := by rw [Node.reference?, hpay]
    rw [Knows, hf, ((hL id n hn).literal hk decl hrefer).2]
  address _ _ _ _ _ _ _ := knows_plain fun _ _ => Value.noConfusion

end Layout

end Flowgraph
