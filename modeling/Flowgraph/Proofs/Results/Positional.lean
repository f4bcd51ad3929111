import Flowgraph.Proofs.Assign.Simultaneous
import Flowgraph.Proofs.Output.Lines
import Flowgraph.Proofs.Results.Filling

/-!
# Several results in their places

The results of a call go to consecutive slots of the frame that called. An operand that is such a
call stands for all its results, and every other operand stands for one value. Whoever takes a list
of operands — a call, a native, a spawned task, a return, a line of output — takes exactly what they
stand for, one operand after the other.
-/

namespace Flowgraph

namespace Machine

variable {m m' : Machine} {x : ChainId} {f : FrameId} {id : NodeId} {rs : List Value} {n : Node}
  {b : Nat}

/-- A chain has handed the results of a call to the node that called. -/
structure Delivered (m m' : Machine) (x : ChainId) (f : FrameId) (id : NodeId)
    (rs : List Value) : Prop where
  before : ∃ c a depth rest, m.chain? x = some c ∧ c.stage = .deliver rs ∧
    c.walks = ⟨a, some id, depth⟩ :: rest ∧ a.frame = f
  step : m.step (.run x) = m'
  follows : ∃ c, m'.chain? x = some c ∧ c.stage = .follow

lemma Delivered.storeResults (h : Delivered m m' x f id rs) :
    m.program.storeResults f id rs m.store = .ok () m'.store := by
  obtain ⟨⟨c, a, depth, rest, hc, hs, hw, rfl⟩, rfl, c', hc', hs'⟩ := h
  have ha : c.advance m.program = some (c.deliver m.program rs) := by rw [Chain.advance, hs]
  have hdeliver : c.deliver m.program rs = do
      m.program.storeResults a.frame id rs
      return { c with stage := .follow } := by
    rw [Chain.deliver, hw]
  rw [Machine.step, run_of_advance hc ha, stepChain_eq, hdeliver, Op.bind_apply] at hc' ⊢
  cases hr : m.program.storeResults a.frame id rs m.store with
  | ok u s => rfl
  | error e s =>
    rw [hr] at hc'
    dsimp only at hc'
    rw [chain?_setChain_self (by exact hc)] at hc'
    cases hc'
    cases e <;> cases hs'

/-- The results go to consecutive slots, as many of them as the node is wide. -/
lemma Delivered.stored (h : Delivered m m' x f id rs) (hn : m.program.node id = .ok n)
    (hslot : n.slot = some b) :
    m.store.Stored (Store.consecutive f b (rs.take n.width).length) (rs.take n.width) m'.store := by
  have hstore := h.storeResults
  rw [Program.storeResults_some hn hslot, Op.setSlots_apply] at hstore
  split_ifs at hstore with hfits
  · have hput : m.store.putAll f b (rs.take n.width) = m'.store := by
      injection hstore
    rw [← hput]
    exact Store.stored_putAll hfits

end Machine

/-! ### What an operand stands for -/

/-- What is passed on when a call is bound. -/
def Pending.passing (k : Kind) (callee : Callee) : Pending :=
  if k = .spawn then .spawn callee else .call callee

namespace Program

variable {p : Program} {s : Store} {f : FrameId} {id d : NodeId} {n : Node} {ops : List NodeId}
  {vs : List Value} {callee : Value} {receiver : Option Value}

/-- What an operand stands for: one value, or the results of a call in the same frame, which hold in
its slots what they held when they were delivered. -/
inductive StandsFor (p : Program) (s : Store) (f : FrameId) (d : NodeId) : List Value → Prop
  | ordinary {n : Node} {v : Value} (node : p.node d = .ok n) (single : n.slot = none ∨ n.width ≤ 1)
      (value : p.value f d s = .ok v) : StandsFor p s f d [v]
  | results {n : Node} {b : Nat} {rs : List Value} {m m' : Machine} {x : ChainId}
      (node : p.node d = .ok n) (kind : n.kind = .call) (level : n.level = 0)
      (slot : n.slot = some b) (width : n.width = rs.length) (several : 1 < rs.length)
      (program : m.program = p) (delivered : m.Delivered m' x f d rs)
      (kept : ∀ j < rs.length, s.slot? f (b + j) = m'.store.slot? f (b + j)) :
      StandsFor p s f d rs

lemma range?_of_slot? {b : Nat} {rs : List Value} (hpos : 0 < rs.length)
    (h : ∀ j < rs.length, s.slot? f (b + j) = rs[j]?) : s.range? f b rs.length = some rs := by
  have hlast := h (rs.length - 1) (by omega)
  rw [List.getElem?_eq_getElem (by omega)] at hlast
  have hlt := (Array.getElem?_eq_some_iff.mp hlast).1
  have hle : b + rs.length ≤ s.frameSize f := by
    rw [Store.frameSize]
    omega
  have hrange : s.range? f b rs.length = some _ := if_pos hle
  obtain ⟨hlen, hslots⟩ := Store.slot?_of_range? hrange
  rw [hrange, Option.some.injEq]
  refine List.ext_getElem? fun j => ?_
  by_cases hj : j < rs.length
  · rw [← hslots j hj, h j hj]
  · rw [List.getElem?_eq_none (by omega), List.getElem?_eq_none (by omega)]

lemma StandsFor.values (h : p.StandsFor s f d vs) : p.values f d s = .ok vs := by
  cases h with
  | @ordinary n v hn hsingle hv =>
    have hvalues : p.values f d s = (do return [← p.value f d] : Look (List Value)) s := by
      refine (Look.bind_ok hn).trans ?_
      rcases hsingle with hslot | hwidth
      · rw [hslot]
      · cases n.slot with
        | none => rfl
        | some slot =>
          dsimp only
          rw [if_neg (by omega)]
    rw [hvalues]
    exact (Look.bind_ok hv).trans rfl
  | @results n b _ m m' x hn hk hlevel hslot hwidth hseveral hprogram hdelivered hkept =>
    have hstored := hdelivered.stored (hprogram ▸ hn) hslot
    rw [hwidth, List.take_length] at hstored
    have hrange : s.range? f b vs.length = some vs :=
      range?_of_slot? (by omega) fun j hj => (hkept j hj).trans (hstored.slot?_consecutive hj)
    refine (Look.bind_ok hn).trans ?_
    rw [hslot]
    dsimp only
    rw [if_pos (by omega), hlevel, hwidth]
    exact slotsAt_ok rfl hrange d

lemma allValues_of_standsFor {vss : List (List Value)}
    (h : List.Forall₂ (p.StandsFor s f) ops vss) : p.allValues f ops s = .ok vss.flatten := by
  have hall : (ops.mapM (p.values f) : Look (List (List Value))) s = .ok vss :=
    Look.mapM_ok (h.imp fun _ _ hd => hd.values)
  exact (Look.bind_ok hall).trans rfl

/-! ### Who takes a list of operands -/

/-- What a call refers to beside its arguments. -/
def RefersTo (p : Program) (s : Store) (f : FrameId) (id : NodeId) (callee : Value)
    (receiver : Option Value) : Prop :=
  ∃ c part, p.child id 0 = .ok c ∧ p.receiverPart c = .ok part ∧ p.value f c s = .ok callee ∧
    p.receiverValue f part s = .ok receiver

/-- A node calls, or spawns, with some operands as arguments. -/
structure CallsWith (p : Program) (id : NodeId) (n : Node) (ops : List NodeId) : Prop where
  node : p.node id = .ok n
  kind : n.kind = .call ∨ n.kind = .spawn
  arguments : n.children.drop 1 = ops

/-- Whoever takes a list of operands takes a list of values. -/
structure Takes (p : Program) (s : Store) (f : FrameId) (ops : List NodeId) (vs : List Value) :
    Prop where
  /-- A native gets them behind its receiver, when it is called and when it is spawned. -/
  native : ∀ id n name receiver, p.CallsWith id n ops →
    p.RefersTo s f id (.native name) receiver →
    p.perform f id s = .ok (.passing n.kind (.native name (receiver.toList ++ vs))) s
  /-- A declared function gets a fresh frame with them in it, if they fit it. -/
  declared : ∀ id n decl env receiver d, p.CallsWith id n ops →
    p.RefersTo s f id (.func decl env) receiver → p.definition decl = .ok d →
    d.frameSize ≤ maxValues → d.Fits receiver vs →
    ∃ slots, d.Fills receiver vs slots ∧ p.perform f id s =
      .ok (.passing n.kind (.declared ⟨s.nextFrame, decl, d.entry, d.results⟩))
        (s.withFrame slots (if n.isFork then f else lexicalParent env))
  /-- It is called only if they fit it. -/
  only : ∀ id n decl env receiver d, p.CallsWith id n ops →
    p.RefersTo s f id (.func decl env) receiver → p.definition decl = .ok d →
    d.frameSize ≤ maxValues → ¬d.Fits receiver vs →
    ∃ defect s', p.perform f id s = .error (.malformed decl defect) s'
  /-- No function is called whose frame is larger than any memory. -/
  oversized : ∀ id n decl env receiver d, p.CallsWith id n ops →
    p.RefersTo s f id (.func decl env) receiver → p.definition decl = .ok d →
    maxValues < d.frameSize → vs.length = d.params.length →
    p.perform f id s = .error .tooLarge s
  /-- A return leaves them in the first slots of its frame. -/
  ret : ∀ id n, p.node id = .ok n → n.kind = .ret → n.children = ops →
    vs.length ≤ s.frameSize f →
    StoresInto s (Store.consecutive f 0 vs.length) vs (p.perform f id s)
  /-- They are printed on one line. -/
  println : ∀ id n, p.node id = .ok n → n.kind = .println → n.children.drop 1 = ops →
    p.perform f id s = .ok .done (s.writeLine (s.renderLine vs))

lemma CallsWith.perform (h : p.CallsWith id n ops) (op : String)
    (hop : op = if n.kind = .spawn then "go" else "call") : p.perform f id s =
      match p.bindCall f id op s with
      | .ok callee s' => .ok (.passing n.kind callee) s'
      | .error e s' => .error e s' := by
  rw [perform_of_node h.node]
  rcases h.kind with hk | hk
  · rw [hk, if_neg (by decide)] at hop
    rw [hk, hop]
    change (p.bindCall f id "call" >>= fun c => pure (Pending.call c)) s = _
    rw [Op.bind_apply]
    cases p.bindCall f id "call" s <;> rfl
  · rw [hk, if_pos rfl] at hop
    rw [hk, hop]
    change (p.bindCall f id "go" >>= fun c => pure (Pending.spawn c)) s = _
    rw [Op.bind_apply]
    cases p.bindCall f id "go" s <;> rfl

/-- A call of a declared function is bound to what its operands are read as. -/
lemma CallsWith.bindCall_func (h : p.CallsWith id n ops) (hvs : p.allValues f ops s = .ok vs)
    {decl : NodeId} {env : Option FrameId} (href : p.RefersTo s f id (.func decl env) receiver)
    (op : String) : p.bindCall f id op s =
      p.activate decl (if n.isFork then f else lexicalParent env) receiver vs s := by
  obtain ⟨c, part, hc, hpart, hv, hr⟩ := href
  have hargs : p.allValues f (n.children.drop 1) s = .ok vs := by rw [h.arguments, hvs]
  have hbinding : p.bindingOf f id op s =
      .ok (.declared decl (if n.isFork then f else lexicalParent env) receiver vs) := by
    refine (Look.bind_ok h.node).trans ((Look.bind_ok hc).trans ((Look.bind_ok hpart).trans ?_))
    exact (Look.bind_ok hv).trans ((Look.bind_ok hr).trans ((Look.bind_ok hargs).trans rfl))
  rw [bindCall_eq, Op.look_bind_apply, hbinding]
  rfl

/-- So is a call of a native. -/
lemma CallsWith.bindCall_native (h : p.CallsWith id n ops) (hvs : p.allValues f ops s = .ok vs)
    {name : String} (href : p.RefersTo s f id (.native name) receiver) (op : String) :
    p.bindCall f id op s = .ok (.native name (receiver.toList ++ vs)) s := by
  obtain ⟨c, part, hc, hpart, hv, hr⟩ := href
  have hargs : p.allValues f (n.children.drop 1) s = .ok vs := by rw [h.arguments, hvs]
  have hbinding : p.bindingOf f id op s = .ok (.native name (receiver.toList ++ vs)) := by
    refine (Look.bind_ok h.node).trans ((Look.bind_ok hc).trans ((Look.bind_ok hpart).trans ?_))
    exact (Look.bind_ok hv).trans ((Look.bind_ok hr).trans ((Look.bind_ok hargs).trans rfl))
  rw [bindCall_eq, Op.look_bind_apply, hbinding]
  rfl

lemma takes_of_allValues (hvs : p.allValues f ops s = .ok vs) : p.Takes s f ops vs := by
  refine ⟨?native, ?declared, ?only, ?oversized, ?ret, ?println⟩
  case native =>
    intro id n name receiver h href
    rw [h.perform _ rfl, h.bindCall_native hvs href]
  case declared =>
    intro id n decl env receiver d h href hd hsize hfits
    refine ⟨_, hfits.fills, ?_⟩
    rw [h.perform _ rfl, h.bindCall_func hvs href, activate_of_fits hd hsize hfits]
  case only =>
    intro id n decl env receiver d h href hd hsize hfits
    obtain ⟨defect, s', he⟩ := activate_of_not_fits hd hsize hfits
      (if n.isFork then f else lexicalParent env) s
    refine ⟨defect, s', ?_⟩
    rw [h.perform _ rfl, h.bindCall_func hvs href, he]
  case oversized =>
    intro id n decl env receiver d h href hd hsize hcount
    rw [h.perform _ rfl, h.bindCall_func hvs href, activate_of_oversized hd hsize hcount]
  case ret =>
    intro id n hn hk hops hle
    refine ⟨_, ?_, Store.stored_putAll (.inr (by omega))⟩
    rw [perform_of_node hn, hk]
    refine completely_apply ?_
    rw [Program.ret, Op.except_bind_apply, hn]
    dsimp only
    rw [Op.look_bind_apply, hops, hvs]
    dsimp only
    rw [Op.setSlots_apply, if_pos (.inr (by omega))]
  case println =>
    intro id n hn hk hops
    exact perform_println hn hk (by rw [hops, hvs])

/-- The results of a call go to consecutive slots, one after the other, and whoever takes a list of
operands takes exactly what they stand for, in their order: the one value of an ordinary operand,
and all results of a call. -/
theorem results_positional (p : Program) :
    (∀ (m m' : Machine) x f id rs n b, m.program = p → m.Delivered m' x f id rs →
      p.node id = .ok n → n.slot = some b →
      m.store.Stored (Store.consecutive f b (rs.take n.width).length) (rs.take n.width) m'.store) ∧
    ∀ s f ops vss, List.Forall₂ (p.StandsFor s f) ops vss → p.Takes s f ops vss.flatten := by
  refine ⟨fun m m' x f id rs n b hp h hn hslot => ?_, fun s f ops vss h => ?_⟩
  · exact Machine.Delivered.stored h (hp ▸ hn) hslot
  · exact takes_of_allValues (allValues_of_standsFor h)

/-- A function returns two numbers, and a call of another function passes them on behind a third
one. That function puts its first and its last parameter in the same slot. -/
def passingOn : Graph where
  globals := 2
  nodes := #[
    { kind := .funcDecl, payload := some (.definition
        { name := "pair", frameSize := 2, results := 2, entry := some ⟨1⟩ }) },
    { kind := .ret, children := [⟨2⟩, ⟨3⟩] },
    { kind := .basicLit, payload := some (.literal (.int 7)) },
    { kind := .basicLit, payload := some (.literal (.int 8)) },
    { kind := .funcDecl, payload := some (.definition
        { name := "triple", frameSize := 3, params := [1, 0, 1] }) },
    { kind := .call, children := [⟨6⟩], slot := some 0, width := 2, next := some ⟨7⟩ },
    { kind := .ident, payload := some (.func ⟨0⟩) },
    { kind := .call, children := [⟨8⟩, ⟨9⟩, ⟨5⟩] },
    { kind := .ident, payload := some (.func ⟨4⟩) },
    { kind := .basicLit, payload := some (.literal (.int 5)) }]

theorem results_positional_passingOn : ∃ start m,
    Machine.load passingOn .empty {} true = .ok start ∧
    Machine.Reaches (start.addChain (.atNode ⟨5⟩)).2 m ∧
    m.Delivered (m.step (.run ⟨0⟩)) ⟨0⟩ globalFrame ⟨5⟩ [.int 7, .int 8] ∧
    ∃ slots, start.program.perform globalFrame ⟨7⟩ (m.step (.run ⟨0⟩)).store =
      .ok (.call (.declared ⟨⟨2⟩, ⟨4⟩, none, 0⟩))
        ((m.step (.run ⟨0⟩)).store.withFrame slots globalFrame) ∧
      slots[0]? = some (.int 7) ∧ slots[1]? = some (.int 8) ∧ slots[2]? = some .nil := by
  obtain ⟨start, hstart⟩ : ∃ start, Machine.load passingOn .empty {} true = .ok start := ⟨_, rfl⟩
  have hreaches := Machine.Reaches.step (start.addChain (.atNode ⟨5⟩)).2 (.run ⟨0⟩) <|
    .step _ (.run ⟨0⟩) <| .step _ (.run ⟨0⟩) <| .step _ (.run ⟨0⟩) <| .step _ (.run ⟨0⟩) <| .refl _
  refine ⟨start, _, hstart, hreaches, ?_⟩
  cases hstart
  refine (fun hdelivered => ⟨hdelivered, ?_⟩) ⟨⟨_, _, _, _, rfl, rfl, rfl, rfl⟩, rfl, _, rfl, rfl⟩
  have htakes := (results_positional _).2 _ _ [⟨9⟩, ⟨5⟩] _ <|
    .cons (.ordinary rfl (.inl rfl) rfl) <|
      .cons (.results rfl rfl rfl rfl rfl (by decide) rfl hdelivered fun _ _ => rfl) .nil
  obtain ⟨slots, hslots, hperform⟩ := htakes.declared ⟨7⟩ _ ⟨4⟩ none none _ ⟨rfl, .inl rfl, rfl⟩
    ⟨_, _, rfl, rfl, rfl, rfl⟩ rfl (by decide) ⟨rfl, by decide, fun i hi => by cases hi⟩
  refine ⟨slots, hperform, ?_, ?_, ?_⟩
  · refine hslots.arguments 1 0 rfl fun k hk => ?_
    match k with
    | 2 => decide
    | k + 3 => exact fun h => by cases h
  · refine hslots.arguments 2 1 rfl fun k hk => ?_
    match k with
    | k + 3 => exact fun h => by cases h
  · exact hslots.others 2 (by decide) (fun hi => by cases hi) (by decide)

/-- A function without parameters is called, whose frame would be larger than any memory. -/
def colossal : Graph where
  nodes := #[
    { kind := .funcDecl, payload := some (.definition
        { name := "colossal", frameSize := 1152921504606846976 }) },
    { kind := .ident, payload := some (.func ⟨0⟩) },
    { kind := .call, children := [⟨1⟩] }]

/-- Receiver and arguments fit it, and yet it is not called. -/
theorem not_called_colossal : ∃ start, Machine.load colossal .empty {} true = .ok start ∧
    (∃ n, start.program.CallsWith ⟨2⟩ n []) ∧
    start.program.RefersTo start.store globalFrame ⟨2⟩ (.func ⟨0⟩ none) none ∧
    (∃ d, start.program.definition ⟨0⟩ = .ok d ∧ d.Fits none []) ∧
    (¬∃ callee s', start.program.perform globalFrame ⟨2⟩ start.store = .ok (.call callee) s') ∧
    (start.exec 10 ⟨2⟩).1 = some (.error .tooLarge) := by
  refine ⟨_, rfl, ⟨_, rfl, .inl rfl, rfl⟩, ⟨_, _, rfl, rfl, rfl, rfl⟩, ⟨_, rfl, rfl, ?_, ?_⟩, ?_,
    rfl⟩
  · exact fun i hi => absurd hi List.not_mem_nil
  · exact fun i hi => by cases hi
  · rintro ⟨callee, s', h⟩
    cases h

end Program

end Flowgraph
