import Mathlib.Tactic.Common
import Flowgraph.Proofs.Contents
import Flowgraph.Proofs.Hands.Chains
import Flowgraph.Proofs.Natives
import Flowgraph.Proofs.Upkeep.Advance

/-!
# Where values come from

Operations make functions from constants and closures, and pointers from the addresses of elements;
everything else that they hand on they have read. So when what they make has a property, and what a
store holds has it too, then so has everything that is handed on. The frames that calls add may be
described along with the values.
-/

namespace Flowgraph

variable {V : Value → Prop} {W : Activation → Option NodeId → Prop} {B : Activation → Prop}
  {I Q : Store → Prop} {p : Program} {s : Store}

/-! ### Sources -/

/-- A frame that a call may link to. -/
def Program.Parent (V : Value → Prop) (W : Activation → Option NodeId → Prop) (parent : FrameId) :
    Prop :=
  (∃ a node, W a node ∧ parent = a.frame) ∨
    ∃ decl env, V (.func decl env) ∧ parent = lexicalParent env

/-- Where what a program hands on comes from: constants, closures, new frames, and what stores
with `I` hold. -/
structure Program.Origins (p : Program) (V : Value → Prop) (W : Activation → Option NodeId → Prop)
    (B : Activation → Prop) (I : Store → Prop) : Prop where
  stable : Stable I V
  settable : Settable I V
  slots : ∀ s f v, I s → v ∈ s.slots f → V v
  setSlot : ∀ s f i v, I s → V v → I (s.setSlot f i v)
  close : ∀ s ch, I s → I (s.updateChannel ch fun c => { c with closed := true })
  constant : ∀ id n, p.node id = .ok n → V ((p.constant? id).getD .nil)
  closure : ∀ a id n decl, W a (some id) → p.node id = .ok n → n.payload = some (.func decl) →
    V (.func decl (some a.frame))
  enter : ∀ a, B a → W a a.entry
  successor : ∀ a id s, W a (some id) → Ends (fun _ => True) (W a) (p.successor a.frame id s)
  begin : ∀ s slots parent decl d, I s → (∀ v ∈ slots, V v) → p.definition decl = .ok d →
    Parent V W parent → I (s.withFrame slots parent) ∧ B ⟨s.nextFrame, decl, d.entry, d.results⟩

namespace Program.Origins

variable (H : p.Origins V W B I) {a : Activation} {f : FrameId} {id : NodeId} {n : Node}

include H

/-! ### Slots -/

lemma slot (hs : I s) {i : Nat} {v : Value} (h : s.slot? f i = some v) : V v :=
  H.slots s f v hs (Array.mem_of_getElem? h)

lemma range (hs : I s) {start count : Nat} {vs : List Value}
    (h : s.range? f start count = some vs) : ∀ v ∈ vs, V v := by
  intro v hv
  rw [Store.range?] at h
  split_ifs at h
  cases h
  rw [Array.toList_extract, List.extract_eq_take_drop] at hv
  exact H.slots s f v hs (Array.mem_def.mpr (List.mem_of_mem_drop (List.mem_of_mem_take hv)))

lemma gives_slotsAt (level start count : Nat) (id : NodeId) :
    Look.Gives I (fun _ => True) (Program.slotsAt f level start count id)
      fun vs => ∀ v ∈ vs, V v := by
  refine .bind (Look.gives_any _) fun owner _ => .read fun s hs => ?_
  cases hr : s.range? owner start count with
  | none => exact trivial
  | some vs => exact H.range hs hr

lemma gives_results (a : Activation) :
    Look.Gives I (fun _ => True) (Program.results a) fun vs => ∀ v ∈ vs, V v := by
  refine .read fun s hs => ?_
  cases hr : s.range? a.frame 0 a.results with
  | none => exact trivial
  | some vs => exact H.range hs hr

/-! ### Slots that are written -/

lemma keeps_setSlot {i : Nat} {v : Value} (hv : V v) (missing : Stop) :
    Op.Keeps I (fun _ => True) (Op.setSlot f i v missing) fun _ => True :=
  .get fun _ _ =>
    .ite (fun _ => .modify fun s hs => H.setSlot s f i v hs hv) fun _ => .throw trivial

lemma keeps_setSlots {start : Nat} {vs : List Value} (hv : ∀ v ∈ vs, V v) (missing : Stop) :
    Op.Keeps I (fun _ => True) (Op.setSlots f start vs missing) fun _ => True := by
  induction vs generalizing start with
  | nil => exact .pure trivial
  | cons v vs ih =>
    refine .bind (H.keeps_setSlot (hv v List.mem_cons_self) missing) fun _ _ => ?_
    exact ih fun w hw => hv w (List.mem_cons_of_mem _ hw)

lemma keeps_storeResults (id : NodeId) {vs : List Value} (hv : ∀ v ∈ vs, V v) :
    Op.Keeps I (fun _ => True) (p.storeResults f id vs) fun _ => True := by
  refine .bind (.lift (ends_any _)) fun n _ => ?_
  cases n.slot with
  | none => exact .pure trivial
  | some slot => exact H.keeps_setSlots (fun v h => hv v (List.mem_of_mem_take h)) _

lemma keeps_setOwn {v : Value} (hv : V v) :
    Op.Keeps I (fun _ => True) (p.setOwn f id v) fun _ => True := by
  refine .bind (.lift (ends_any _)) fun m _ => ?_
  cases m.slot with
  | none => exact .throw trivial
  | some slot => exact H.keeps_setSlot hv _

/-! ### Operands -/

lemma gives_value (id : NodeId) : Look.Gives I (fun _ => True) (p.value f id) V := by
  refine .bind (.lift (ends_any _)) fun n hn => ?_
  split_ifs
  · exact .pure (H.constant id n hn)
  · refine .bind (Look.gives_any _) fun owner _ => ?_
    cases n.slot with
    | none => exact .pure (H.constant id n hn)
    | some slot =>
      refine .read fun s hs => ?_
      cases hv : s.slot? owner slot with
      | some v => exact H.slot hs hv
      | none => exact trivial

lemma gives_values (id : NodeId) :
    Look.Gives I (fun _ => True) (p.values f id) fun vs => ∀ v ∈ vs, V v := by
  have hone : Look.Gives I (fun _ => True)
      (do return [← p.value f id]) fun vs => ∀ v ∈ vs, V v := by
    refine .bind (H.gives_value id) fun v hv => .pure fun w hw => ?_
    rw [List.mem_singleton.mp hw]
    exact hv
  refine .bind (.lift (ends_any _)) fun n _ => ?_
  cases n.slot with
  | none => exact hone
  | some slot =>
    dsimp only
    split_ifs
    · exact H.gives_slotsAt _ _ _ _
    · exact hone

/-! ### Operations -/

/-- Every operation is under control, if addresses are. -/
lemma regime (hn : p.node id = .ok n) (hw : W a (some id))
    (haddress : n.kind = .indexAddress → ∀ s b i, I s → b.Known V → i < (s.block b).size →
      V (.pointer b i)) :
    Regime p a.frame id n I V fun _ => True where
  toSteady := H.stable.toSteady
  node := hn
  tolerant _ _ := trivial
  read c _ := H.gives_value c
  readAll c _ := H.gives_values c
  readSpread _ _ _ _ _ _ _ := H.gives_slotsAt _ _ _ _
  readPosition _ slot _ s hs := by
    cases hv : s.slot? a.frame (slot + 1) with
    | some v => exact H.slot hs hv
    | none => exact trivial
  writeOwn _ v hv := H.keeps_setOwn hv
  writeTo c _ v hv := by
    refine .bind (.lift (ends_any _)) fun m _ => ?_
    cases m.slot with
    | none => exact .pure trivial
    | some slot => exact .bind (.look (Look.gives_any _)) fun _ _ => H.keeps_setSlot hv _
  writePosition _ slot _ s v hs hv := H.setSlot s a.frame (slot + 1) v hs hv
  writeResults _ := by
    refine .bind (.lift (ends_any _)) fun m _ => ?_
    have hvalues : Look.Gives I (fun _ => True) (p.allValues a.frame m.children)
        fun vs => ∀ v ∈ vs, V v := by
      refine .bind (.mapM fun c _ => H.gives_values c) fun vss hvss => .pure fun v hv => ?_
      obtain ⟨vs, hvs, hv⟩ := List.mem_flatten.mp hv
      exact hvss vs hvs v hv
    exact .bind (.look hvalues) fun vs hvs => H.keeps_setSlots hvs _
  newMap _ := H.stable.newMap
  newDict _ := H.stable.newDict
  insertEntry _ := H.stable.insertEntry
  print _ := H.stable.writeLine
  close _ s ch hs := H.close s ch hs
  closure _ decl hpay := H.closure a id n decl hw hn hpay
  address := haddress

/-- The address of an element is the address of an element that was there before. -/
lemma leads_indexAddress (hs : I s)
    (haddress : ∀ b i, b.Known V → i < (s.block b).size → V (.pointer b i)) :
    Op.Leads s I (p.indexAddress f id) fun _ => True := by
  have hoperand : ∀ i, Look.Gives I (fun _ => True) (p.operand f id i) V :=
    fun i => .bind (.lift (ends_any _)) fun c _ => H.gives_value c
  refine .look_bind (hoperand 0 s hs) hs fun collection hc => ?_
  refine .look_bind (hoperand 1 s hs) hs fun w _ => ?_
  refine .lift_bind (ends_any _) hs fun i _ => ?_
  refine .lift_bind (ends_asBlock_known (E := fun _ => True) (fun _ _ => trivial) _ hc) hs
    fun b hb => ?_
  rw [Op.Leads, Op.bind_apply, Op.get_apply]
  dsimp only
  have hindex : Ends (fun _ => True) (fun place => place < (s.block b).size)
      (checkIndex i (s.block b).size) := ends_checkIndex (fun _ _ => trivial) i _
  refine Op.Leads.lift_bind hindex hs fun place hplace => ?_
  exact (H.keeps_setOwn (haddress b place hb hplace)).leads hs

/-! ### Calls -/

lemma keeps_activate (decl : NodeId) {parent : FrameId} (hparent : Parent V W parent)
    {receiver : Option Value} {args : List Value} (hr : ∀ v, receiver = some v → V v)
    (ha : ∀ v ∈ args, V v) :
    Op.Keeps I (fun _ => True) (p.activate decl parent receiver args) (Callee.Bears V B) := by
  intro s hs
  have hbegin : ∀ {d s'}, p.definition decl = .ok d → Added d parent receiver args s s' →
      I s' ∧ B ⟨s.nextFrame, decl, d.entry, d.results⟩ := by
    rintro d s' hd ⟨slots, hf, rfl⟩
    refine H.begin s slots parent decl d hs (fun v hv => ?_) hd hparent
    rcases hf.content v hv with rfl | hv | hv
    · exact H.stable.plain _ rfl
    · exact hr v hv
    · exact ha v hv
  have h := p.activates decl parent receiver args s
  cases hx : p.activate decl parent receiver args s with
  | ok callee s' =>
    rw [hx] at h
    obtain ⟨d, hd, hadd, rfl⟩ := h
    exact hbegin hd hadd
  | error e s' =>
    rw [hx] at h
    rcases h with ⟨rfl, -⟩ | ⟨d, hd, hadd, -⟩
    · exact ⟨hs, trivial⟩
    · exact ⟨(hbegin hd hadd).1, trivial⟩

lemma keeps_bindValues {callee : Value} {receiver : Option Value} {args : List Value}
    (hcallee : V callee) (hr : ∀ v, receiver = some v → V v) (ha : ∀ v ∈ args, V v) :
    Op.Keeps I (fun _ => True) (p.bindValues callee receiver args) (Callee.Bears V B) := by
  cases callee with
  | func decl env => exact H.keeps_activate decl (.inr ⟨decl, env, hcallee, rfl⟩) hr ha
  | native name =>
    refine .pure fun v hv => ?_
    rcases List.mem_append.mp hv with hv | hv
    · exact hr v (Option.mem_toList.mp hv)
    · exact ha v hv
  | _ => exact .throw trivial

lemma keeps_bindCall (hn : p.node id = .ok n) (hk : n.kind = .call ∨ n.kind = .spawn)
    (hw : W a (some id)) (op : String) :
    Op.Keeps I (fun _ => True) (p.bindCall a.frame id op) (Callee.Bears V B) := by
  rw [bindCall_eq]
  have R : Regime p a.frame id n I V fun _ => True :=
    H.regime hn hw fun h => by rcases hk with hk | hk <;> rw [hk] at h <;> cases h
  refine .bind (.look (R.gives_bindingOf hk op)) fun binding hb => ?_
  cases binding with
  | declared decl parent receiver args =>
    obtain ⟨⟨env, hcallee, hparent⟩, hr, ha⟩ := hb
    refine H.keeps_activate decl ?_ hr ha
    rw [hparent]
    split_ifs
    · exact .inl ⟨a, some id, hw, rfl⟩
    · exact .inr ⟨decl, env, hcallee, rfl⟩
  | native name args => exact .pure hb

/-! ### All that chains do by themselves -/

omit H in
lemma bears_stageAfter {depth : Nat} {pending : Pending} (h : pending.Holds V) :
    (Chain.stageAfter depth pending).Bears V B := by
  cases pending with
  | send ch v => exact h
  | receive ch purpose => exact h
  | call callee => exact absurd h id
  | spawn callee => exact absurd h id
  | _ => exact trivial

lemma leads_perform (hs : I s)
    (haddress : ∀ b i, b.Known V → i < (s.block b).size → V (.pointer b i))
    (hw : W a (some id)) :
    Op.Leads s I (p.perform a.frame id) fun pending =>
      ∀ depth, (Chain.stageAfter depth pending).Bears V B := by
  refine .lift_bind (ends_any _) hs fun n hn => ?_
  by_cases hcall : n.kind = .call
  · rw [hcall]
    exact (Op.Keeps.bind (H.keeps_bindCall hn (.inl hcall) hw "call") fun callee hc =>
      .pure fun _ => hc).leads hs
  · by_cases hspawn : n.kind = .spawn
    · rw [hspawn]
      exact (Op.Keeps.bind (H.keeps_bindCall hn (.inr hspawn) hw "go") fun callee hc =>
        .pure fun _ => hc).leads hs
    · by_cases hindex : n.kind = .indexAddress
      · rw [hindex]
        exact (H.leads_indexAddress hs haddress).bind_pure fun _ _ _ => trivial
      · have R : Regime p a.frame id n I V fun _ => True :=
          H.regime hn hw fun h => absurd h hindex
        exact ((R.keeps_operation hcall hspawn fun _ => H.settable).mono fun pending hp _ =>
          bears_stageAfter hp).leads hs

/-- A program hands on only what comes from its sources, or from natives. -/
theorem hands (hs : I s)
    (haddress : ∀ b i, b.Known V → i < (s.block b).size → V (.pointer b i))
    (hreply : ∀ name symbol args, p.natives.symbol? name = some symbol → (∀ v ∈ args, V v) →
      (symbol.run p.config s args).Bears V) :
    p.Hands s I V W B where
  same := hs
  enter := H.enter
  print line := H.stable.writeLine s line hs
  perform a id hw := H.leads_perform hs haddress hw
  bind callee receiver args hc hr ha := (H.keeps_bindValues hc hr ha).leads hs
  results a _ := H.gives_results a s hs
  successor a id hw := H.successor a id s hw
  storeResults a id vs _ hv := (H.keeps_storeResults id hv).leads hs
  storeReceived a id n v hw hn hk hv := by
    have R : Regime p a.frame id n I V fun _ => True :=
      H.regime hn hw fun h => by rw [hk] at h; cases h
    exact (R.keeps_storeReceived (by rw [hk]; rfl) hv).leads hs
  visitReceived a id n next v hw hn hk hnext hv := by
    have R : Regime p a.frame id n I V fun _ => True :=
      H.regime hn hw fun h => by rw [hk] at h; cases h
    exact (R.keeps_visitReceived hk hnext hv).leads hs
  reply := hreply

end Program.Origins

/-! ### Stores that hold only certain values -/

/-- Only values with `V` are held, in frames that are as `Q` says. -/
abbrev Store.Keeping (V : Value → Prop) (Q : Store → Prop) (s : Store) : Prop := s.Holds V ∧ Q s

/-- A property of values and a property of stores that do not get in each other's way. -/
lemma Stable.holds (h : ∀ v, v.isPlain = true → V v) (hb : ∀ b, V (.slice b) ∧ V (.struct b))
    (S : Stable Q fun _ => True) : Stable (Store.Keeping V Q) V where
  plain := h
  fresh _ _ := hb _
  element _ b v hs _ hv := hs.1.block b v hv
  entry _ d e hs he := hs.1.dict d e he
  newBlock s elements hs he := ⟨hs.1.newBlock he, S.newBlock s elements hs.2 fun _ _ => trivial⟩
  newDict s d hs hp hd := ⟨hs.1.newDict hd, S.newDict s d hs.2 hp fun _ _ => ⟨trivial, trivial⟩⟩
  insertEntry s d k v hs hk hv :=
    ⟨hs.1.insertEntry d hk hv, S.insertEntry s d k v hs.2 trivial trivial⟩
  newChannel s capacity hs := ⟨hs.1.newChannel capacity, S.newChannel s capacity hs.2⟩
  writeLine s line hs := ⟨hs.1.writeLine line, S.writeLine s line hs.2⟩

lemma Settable.holds (S : Settable Q fun _ => True) : Settable (Store.Keeping V Q) V :=
  fun s b i v hs _ hv => ⟨hs.1.setElement b i hv, S s b i v hs.2 (.inl trivial) trivial⟩

/-- What only depends on the frames of a store. -/
lemma Stable.of_frames (h : ∀ s s' : Store, s'.frames = s.frames → Q s → Q s') :
    Stable Q fun _ => True where
  plain _ _ := trivial
  fresh _ _ := ⟨trivial, trivial⟩
  element _ _ _ _ _ _ := trivial
  entry _ _ _ _ _ := ⟨trivial, trivial⟩
  newBlock s _ hs _ := h s _ rfl hs
  newDict s _ hs _ _ := h s _ rfl hs
  insertEntry s _ _ _ hs _ _ := h s _ rfl hs
  newChannel s _ hs := h s _ rfl hs
  writeLine s _ hs := h s _ rfl hs

lemma Settable.of_frames (h : ∀ s s' : Store, s'.frames = s.frames → Q s → Q s') :
    Settable Q fun _ => True := fun s _ _ _ hs _ _ => h s _ rfl hs

/-- Where what a program hands on comes from, if blocks may be referred to: constants, closures and
new frames. The frames of a store may be described by `Q`. -/
structure Program.Sources (p : Program) (V : Value → Prop) (W : Activation → Option NodeId → Prop)
    (B : Activation → Prop) (Q : Store → Prop) : Prop where
  plain : ∀ v, v.isPlain = true → V v
  block : ∀ b, V (.slice b) ∧ V (.struct b)
  constant : ∀ id n, p.node id = .ok n → V ((p.constant? id).getD .nil)
  closure : ∀ a id n decl, W a (some id) → p.node id = .ok n → n.payload = some (.func decl) →
    V (.func decl (some a.frame))
  enter : ∀ a, B a → W a a.entry
  successor : ∀ a id s, W a (some id) → Ends (fun _ => True) (W a) (p.successor a.frame id s)
  stable : Stable Q fun _ => True
  settable : Settable Q fun _ => True
  setSlot : ∀ s f i v, Q s → Q (s.setSlot f i v)
  close : ∀ s ch, Q s → Q (s.updateChannel ch fun c => { c with closed := true })
  begin : ∀ s slots parent decl d, Q s → p.definition decl = .ok d → Parent V W parent →
    Q (s.withFrame slots parent) ∧ B ⟨s.nextFrame, decl, d.entry, d.results⟩

namespace Program.Sources

variable (H : p.Sources V W B Q)

include H

lemma origins : p.Origins V W B (Store.Keeping V Q) where
  stable := H.stable.holds H.plain H.block
  settable := H.settable.holds
  slots _ f v hs hv := hs.1.slots f v hv
  setSlot s f i v hs hv := ⟨hs.1.setSlot f i hv, H.setSlot s f i v hs.2⟩
  close s ch hs := ⟨hs.1.close ch, H.close s ch hs.2⟩
  constant := H.constant
  closure := H.closure
  enter := H.enter
  successor := H.successor
  begin s slots parent decl d hs hv hd hparent := by
    obtain ⟨hQ, hB⟩ := H.begin s slots parent decl d hs.2 hd hparent
    exact ⟨⟨hs.1.withFrame hv parent, hQ⟩, hB⟩

theorem hands (hs : Store.Keeping V Q s) (haddress : ∀ b i, i < (s.block b).size → V (.pointer b i))
    (hreply : ∀ name symbol args, p.natives.symbol? name = some symbol → (∀ v ∈ args, V v) →
      (symbol.run p.config s args).Bears V) :
    p.Hands s (Store.Keeping V Q) V W B :=
  H.origins.hands hs (fun b i _ => haddress b i) hreply

end Program.Sources

/-! ### Natives -/

/-- Natives that make no functions hand on nothing else than what is held. -/
lemma Registry.Faithful.bears {r : Registry} (h : r.Faithful) 
    (hV : ∀ v, (∀ decl env, v ≠ .func decl env) → V v) (hs : s.Holds V) {config : Config}
    {name : String} {symbol : Symbol} {args : List Value} (hname : r.symbol? name = some symbol)
    (hargs : ∀ v ∈ args, V v) : (symbol.run config s args).Bears V := by
  have hfinds : ∀ v, Native.Finds s args v → V v := by
    rintro v (hv | hv | ⟨i, hv⟩)
    · exact hV v hv
    · exact hargs v hv
    · exact Store.holds_iff.mp hs i v hv
  have hreply := h.of_symbol? hname config s args
  cases hr : symbol.run config s args with
  | results vs | print line vs =>
    rw [hr] at hreply
    exact fun v hv => hfinds v (hreply v hv)
  | stop e => exact trivial
  | call f vs =>
    rw [hr] at hreply
    exact ⟨hfinds f hreply.1, fun v hv => hfinds v (hreply.2 v hv)⟩

/-! ### Machines -/

namespace Machine

variable {m : Machine} {mv : Move} {x : ChainId} {d : Chain}

section Step

variable (H : m.program.Hands m.store I V W B) (hfit : m.Fits)
  (h : ∀ x c, m.chain? x = some c → c.Bears V W B)

include h

/-- What passes through a channel has been in a buffer or at hand. -/
lemma of_offers (hbuffer : ∀ ch, ∀ v ∈ (m.store.channel ch).buffer, V v) {v : Value}
    (hv : m.Offers v) : V v := by
  rcases hv with ⟨ch, hv⟩ | ⟨x, c, ch, phase, hc, hs⟩
  · exact hbuffer ch v hv
  · have hstage := (h x c hc).stage
    rwa [hs] at hstage

include H hfit

/-- What all chains have at hand, they have at hand after every move. -/
theorem bears_next (hbuffer : ∀ ch, ∀ v ∈ (m.store.channel ch).buffer, V v)
    (hd : (m.step mv).chain? x = some d) : d.Bears V W B := by
  cases hc : m.chain? x with
  | none =>
    obtain ⟨y, c, task, callee, -, hc, hs, -, rfl⟩ := launched_of_step hc hd
    have hstage := (h y c hc).stage
    rw [hs] at hstage
    exact ⟨fun w hw => absurd hw List.not_mem_nil, hstage⟩
  | some c => exact (h x c hc).of_next H (fun _ => of_offers h hbuffer) (hfit x c hc) hc hd

end Step

section Keeping

variable (H : m.program.Hands m.store (Store.Keeping V Q) V W B) (hfit : m.Fits)
  (h : ∀ x c, m.chain? x = some c → c.Bears V W B)

include H h hfit

theorem bears_step (hd : (m.step mv).chain? x = some d) : d.Bears V W B :=
  bears_next H hfit h H.same.1.buffer hd

/-- What a store holds is what it holds after every move. -/
theorem keeping_step (hQ : ∀ ch f, Q (m.store.updateChannel ch f)) :
    Store.Keeping V Q (m.step mv).store :=
  store_step_of_hands H
    (fun ch _ hv => ⟨H.same.1.pushValue ch (of_offers h H.same.1.buffer hv), hQ ch _⟩)
    (fun ch => ⟨H.same.1.popValue ch, hQ ch _⟩) hfit fun x c _ hc _ _ => h x c hc

end Keeping

end Machine

end Flowgraph
