import Mathlib.Tactic.Common
import Flowgraph.Proofs.Natives
import Flowgraph.Proofs.Scope.Chains

/-!
# Steps in their scopes

Every step that a chain makes by itself leaves frames as their scopes say and the chain with
nothing but known values, and if it is aborted, it is not at an address.
-/

namespace Flowgraph

namespace Layout

variable {L : Layout} {p : Program} {σ σ' : Scopes} {c c' : Chain}

/-! ### Steps of a chain by itself -/

section Advance

lemma gives_results {w : Walk} (hw : L.Treads p σ w) :
    Look.Gives (L.Describes p σ) Stop.Sane (Program.results w.activation)
      fun vs => ∀ v ∈ vs, L.Knows σ v := by
  obtain ⟨S, hS⟩ := hw
  refine .read fun s hs => ?_
  have hsize := hs.size _ S hS.frame
  have hresults := hS.results
  rw [Store.range?, if_pos (by omega)]
  intro v hv
  rw [Array.toList_extract, List.extract_eq_take_drop] at hv
  exact hs.holds.slots _ v (Array.mem_def.mpr (List.mem_of_mem_drop (List.mem_of_mem_take hv)))

lemma stages_after {depth : Nat} {pending : Pending} (h : pending.Holds (L.Knows σ)) :
    L.Stages p σ (Chain.stageAfter depth pending) := by
  cases pending with
  | send ch v => exact h
  | receive ch purpose => exact h
  | call callee => exact absurd h id
  | spawn callee => exact absurd h id
  | _ => exact trivial

variable (hL : L.Suits p) (hp : p.Loaded) (hr : p.natives.Faithful)

section Walk

include hL hp

/-- Control stays in its scope. -/
lemma gives_successor {f : FrameId} {id : NodeId} (hf : σ.of? f = some (L.scope id)) :
    Look.Gives (L.Describes p σ) Stop.Sane (p.successor f id)
      fun next => ∀ t, next = some t → L.scope t = L.scope id := by
  refine .bind (.lift (ends_node (fun _ he => he) p id)) fun n hn => ?_
  cases ho : n.otherwise with
  | none => exact .pure fun t ht => (hL id n hn).next t ht
  | some whenFalse =>
    refine .bind (gives_value hL hp hf) fun v _ => ?_
    refine .bind (.lift (ends_asBool (fun _ he => he) _ v)) fun b _ => ?_
    split_ifs
    · exact .pure fun t ht => (hL id n hn).next t ht
    · refine .pure fun t ht => (hL id n hn).otherwise t ?_
      rw [ho, ht]
      rfl

lemma upholds_perform {f : FrameId} {id : NodeId} (hf : σ.of? f = some (L.scope id))
    (depth : Nat) :
    L.Upholds p σ (p.perform f id) fun σ' pending =>
      L.Stages p σ' (Chain.stageAfter depth pending) := by
  refine .bind (.of_keeps (P := fun σ' n => σ' = σ ∧ p.node id = .ok n)
    (.lift (ends_node (fun _ he => he) p id)) fun n hn => ⟨rfl, hn⟩) fun σ' n _ hn => ?_
  obtain ⟨rfl, hn⟩ := hn
  by_cases hcall : n.kind = .call
  · rw [hcall]
    exact .bind (upholds_bindCall hL hp hn hf (.inl hcall) "call") fun _ _ _ hc => .pure hc
  · by_cases hspawn : n.kind = .spawn
    · rw [hspawn]
      exact .bind (upholds_bindCall hL hp hn hf (.inr hspawn) "go") fun _ _ _ hc => .pure hc
    · have hop := (regime hL hp hn hf).keeps_operation hcall hspawn fun _ =>
        settable_describes L p _
      exact .of_keeps hop fun pending hpending => stages_after hpending

lemma upholds_walk (hc : L.Carries p σ c) :
    L.Upholds p σ (c.walk p) fun σ' c' => L.Carries p σ' c' := by
  simp only [Chain.walk]
  split
  case h_1 => exact .pure (carries_exit fun v hv => absurd hv List.not_mem_nil)
  case h_2 w rest hw =>
    have htop : L.Treads p σ w := hc.walks w (by rw [hw]; exact List.mem_cons_self)
    have hrest : ∀ w' ∈ rest, L.Treads p σ w' := fun w' hw' =>
      hc.walks w' (by rw [hw]; exact List.mem_cons_of_mem _ hw')
    split
    · refine .of_keeps (.bind (.look (gives_results htop)) fun vs hvs => ?_) fun c' hc' => hc'
      exact .pure ⟨hrest, hvs⟩
    case h_2 id hid =>
      refine .bind (upholds_perform hL hp (htop.frame hid) w.depth) fun σ' pending hσ hs => ?_
      exact .pure ((hc.mono hσ).restage hs)

lemma upholds_follow (hc : L.Carries p σ c) :
    L.Upholds p σ (c.follow p) fun σ' c' => L.Carries p σ' c' := by
  simp only [Chain.follow]
  split
  case h_1 a id depth rest hw =>
    have htop : L.Treads p σ ⟨a, some id, depth⟩ :=
      hc.walks _ (by rw [hw]; exact List.mem_cons_self)
    refine .of_keeps (.bind (.look (gives_successor hL hp (htop.frame rfl)))
      fun next hnext => ?_) fun c' hc' => hc'
    refine .pure ⟨fun w hwm => ?_, trivial⟩
    rcases List.mem_cons.mp hwm with rfl | hwm
    · obtain ⟨S, hS⟩ := htop
      exact ⟨S, hS.frame, hS.scope, fun t ht => by rw [hnext t ht, hS.node id rfl], hS.results⟩
    · exact hc.walks w (by rw [hw]; exact List.mem_cons_of_mem _ hwm)
  case h_2 => exact .pure (hc.restage trivial)

end Walk

/-- What a native can come by is known. -/
lemma knows_of_finds {s : Store} (hs : L.Describes p σ s) {args : List Value}
    (ha : ∀ v ∈ args, L.Knows σ v) {v : Value} (hv : Native.Finds s args v) : L.Knows σ v := by
  rcases hv with hv | hv | ⟨i, hv⟩
  · exact knows_plain hv
  · exact ha v hv
  · exact Store.holds_iff.mp hs.holds i v hv

lemma carries_enter (hc : L.Carries p σ c) {a : Activation} (ha : L.Activates p σ a)
    (depth : Nat) : L.Carries p σ (c.enter a depth) := by
  refine ⟨fun w hw => ?_, trivial⟩
  rcases List.mem_cons.mp hw with rfl | hw
  · exact ⟨some a.decl, ha.frame, .inr rfl, fun id hid => ha.entry id hid, ha.results⟩
  · exact hc.walks w hw

lemma keeps_reply (hc : L.Carries p σ c) {reply : Reply} {s : Store} {args : List Value}
    (hs : L.Describes p σ s) (ha : ∀ v ∈ args, L.Knows σ v) (hreply : reply.Faithful s args) :
    Op.Keeps (L.Describes p σ) Stop.Sane (c.reply reply) (L.Carries p σ) := by
  have hknown : ∀ v, Native.Finds s args v → L.Knows σ v := fun v hv => knows_of_finds hs ha hv
  cases reply with
  | results vs => exact .pure (hc.restage fun v hv => hknown v (hreply v hv))
  | print line vs =>
    refine .bind (.modify fun s' hs' => (stable_describes L p σ).writeLine s' line hs')
      fun _ _ => ?_
    exact .pure (hc.restage fun v hv => hknown v (hreply v hv))
  | stop e => exact .throw hreply
  | call f vs =>
    refine .pure (hc.restage ⟨hknown f hreply.1, ?_, fun v hv => hknown v (hreply.2 v hv)⟩)
    intro v hv
    cases hv

include hr in
lemma upholds_start (hc : L.Carries p σ c) {callee : Callee} (hcallee : L.Binds p σ callee)
    (depth : Nat) :
    L.Upholds p σ (c.start p depth callee) fun σ' c' => L.Carries p σ' c' := by
  refine .of_keeps (K := L.Carries p σ) ?_ fun c' hc' => hc'
  cases callee with
  | declared a =>
    simp only [Chain.start]
    split
    · exact .ite (fun _ => .throw rfl) fun _ => .pure (carries_enter hc hcallee depth)
    · exact .pure (carries_enter hc hcallee depth)
  | native name args =>
    simp only [Chain.start]
    split
    case h_1 symbol hsymbol =>
      refine .get fun s hs => keeps_reply hc hs hcallee ?_
      exact hr.of_symbol? hsymbol _ _ _
    case h_2 => exact .throw rfl

include hL

lemma upholds_deliver (hc : L.Carries p σ c) (hfit : c.Fits p) {vs : List Value}
    (hs : c.stage = .deliver vs) :
    L.Upholds p σ (c.deliver p vs) fun σ' c' => L.Carries p σ' c' := by
  have hvs : ∀ v ∈ vs, L.Knows σ v := by
    have hstage := hc.stage
    rwa [hs] at hstage
  simp only [Chain.deliver]
  split
  case h_1 a id depth rest hw =>
    have htop : L.Treads p σ ⟨a, some id, depth⟩ :=
      hc.walks _ (by rw [hw]; exact List.mem_cons_self)
    obtain ⟨id', n, hid, hn, hk⟩ := hfit.stage .call ⟨a, some id, depth⟩
      (by rw [hs]; rfl) (by rw [hw]; rfl)
    cases hid
    refine .of_keeps (.bind (keeps_storeResults hL hn (by rw [hk]; rfl) (htop.frame rfl) hvs)
      fun _ _ => ?_) fun c' hc' => hc'
    exact .pure (hc.restage trivial)
  case h_2 => exact .pure (carries_exit hvs)

include hp

lemma upholds_received (hc : L.Carries p σ c) (hfit : c.Fits p) {purpose : Purpose}
    {v : Option Value} (hs : c.stage = .received purpose v) :
    L.Upholds p σ (c.received p purpose v) fun σ' c' => L.Carries p σ' c' := by
  have hstage : purpose.Holds (L.Knows σ) ∧ ∀ w, v = some w → L.Knows σ w := by
    have hstage := hc.stage
    rwa [hs] at hstage
  simp only [Chain.received]
  split
  case h_1 a id depth rest hw =>
    have htop : L.Treads p σ ⟨a, some id, depth⟩ :=
      hc.walks _ (by rw [hw]; exact List.mem_cons_self)
    obtain ⟨id', n, hid, hn, hk⟩ := hfit.stage purpose.kind ⟨a, some id, depth⟩
      (by rw [hs]; rfl) (by rw [hw]; rfl)
    cases hid
    have R := regime hL hp hn (htop.frame rfl)
    cases purpose with
    | result =>
      have hn' : n.kind.isStructural = false := by rw [hk]; rfl
      refine .of_keeps (.bind (R.keeps_storeReceived hn' hstage.2) fun _ _ => ?_)
        fun c' hc' => hc'
      exact .pure (hc.restage trivial)
    | visit next =>
      refine .of_keeps (.bind (R.keeps_visitReceived hk hstage.1 hstage.2) fun _ _ => ?_)
        fun c' hc' => hc'
      exact .pure (hc.restage trivial)
  case h_2 =>
    exact .pure (carries_exit fun w hw => hstage.2 w (Option.mem_toList.mp hw))

include hr

/-- A step of a chain by itself leaves everything as its scopes say. -/
lemma upholds_advance (hg : σ.of? globalFrame = some none) (hc : L.Carries p σ c)
    (hfit : c.Fits p) {step : Op Chain} (h : c.advance p = some step) :
    L.Upholds p σ step fun σ' c' => L.Carries p σ' c' := by
  have hstage := hc.stage
  simp only [Chain.advance] at h
  split at h
  case h_1 => cases h; exact upholds_walk hL hp hc
  case h_2 => cases h; exact upholds_follow hL hp hc
  case h_3 callee receiver args hs =>
    cases h
    rw [hs] at hstage
    refine .bind (upholds_bindValues hL hg hstage.1 hstage.2.1 hstage.2.2) fun σ' b hσ hb => ?_
    exact .pure ((hc.mono hσ).restage hb)
  case h_4 depth callee hs =>
    cases h
    rw [hs] at hstage
    exact upholds_start hr hc hstage depth
  case h_5 vs hs => cases h; exact upholds_deliver hL hc hfit hs
  case h_6 purpose v hs => cases h; exact upholds_received hL hp hc hfit hs
  case h_7 => cases h; exact .throw rfl
  case h_8 => cases h

end Advance

end Layout

end Flowgraph
