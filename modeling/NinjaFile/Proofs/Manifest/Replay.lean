import NinjaFile.Proofs.Document.Latest
import NinjaFile.Proofs.Manifest.References
import NinjaFile.Proofs.Store.Tame

/-!
# Replaying a manifest

A builder puts into a document just the statements that its manifest asks for, and
remembers where the last rule and the last pool of each name are.
-/

namespace NinjaFile

open Program Store Action Manifest

/-- The name of a rule or a pool. -/
def Statement.name? : Statement → Option String
  | .rule name _ | .pool name _ _ => some name
  | _ => none

/-- The kind of handle is for statements of the kind of this one. -/
def Expected.asks : Expected → Statement → Prop
  | .rule, .rule .. | .build, .build _ | .pool, .pool .. => True
  | _, _ => False

/-! ## Marked places -/

/-- A handle marks a place of an arena. -/
structure Handle.Marks (h : Handle) (a : Arena) (e : Expected) (k : Nat) (s : Store) : Prop where
  arena : h.arena = a
  expected : h.expected = e
  index : h.index = k
  made : h.serial < s.serial
  bare : s.Bare (.serial h.serial)

theorem Handle.Marks.mono {h : Handle} {a : Arena} {e : Expected} {k : Nat} {s s' : Store}
    (hm : h.Marks a e k s) (hext : s.Extends s') : h.Marks a e k s' :=
  { hm with
    made := Nat.lt_of_lt_of_le hm.made hext.serial
    bare := fun name => (hext.attributes _ name hm.made).trans (hm.bare name) }

namespace Action

theorem returns_grown {α : Type} {p : Action α} {s : Store} {Q : α → Store → Prop}
    (tame : p.Tame true) (h : p.Returns s Q) : p.Returns s fun a s' => Q a s' ∧ s.Extends s' := by
  obtain ⟨a, s', ha, hQ⟩ := h
  have grown : s.Extends (p.alone s).2 :=
    alone_of_every Extends.refl (fun _ _ _ => Extends.trans) extends_setGuard
      (tame.every.mono fun f effect s => (effect s).extends) s
  rw [ha] at grown
  exact ⟨a, s', ha, hQ, grown⟩

end Action

section Handles

variable {given : Store} {d : DocumentId} {a : Arena} {vs : List Value}
  {file : List Statement} {h : Handle}
  {e : Expected} {k : Nat} {st : Statement} {s : Store}

theorem Latest.marks (hl : Latest given d a h e file st s) : h.Marks a e file.length s := by
  obtain ⟨vs, n, -, leads, -⟩ := hl.last
  exact ⟨hl.arena, hl.expected, hl.index, leads.made, leads.bare⟩

theorem Latest.building (hl : Latest given d a h e file st s) :
    ∃ vs, Building given d a vs (file ++ [st]) s := by
  obtain ⟨vs, n, -, -, building⟩ := hl.last
  exact ⟨_, building⟩

namespace Building

/-- A handle leads to the node that says the statement whose place it marks, if this is a
statement of the kind it insists on. -/
theorem leads (hb : Building given d a vs file s) (hm : h.Marks a e k s) (hst : file[k]? = some st)
    (asked : e.asks st) :
    ∃ n : Node, vs[k]? = some n.toValue ∧ h.Leads n.toValue s ∧ s.NodeReads n st := by
  obtain ⟨hk, found⟩ := List.getElem?_eq_some_iff.mp hst
  have hk' : k < vs.length := hb.length_eq ▸ hk
  have hv : vs[k]? = some vs[k] := List.getElem?_eq_getElem hk'
  have reads : s.Reads vs[k] st := by
    have := (List.forall₂_iff_get.mp hb.reads).2 k hk' hk
    rwa [List.get_eq_getElem, List.get_eq_getElem, found] at this
  generalize vs[k] = v at hv reads
  have leads (admits : e.admits v) : h.Leads v s := by
    refine ⟨hm.made, hm.bare, ⟨k, hm.index, ?_⟩, hm.expected ▸ admits⟩
    rw [hm.arena, hb.items]
    exact hv
  cases v with
  | object o =>
      cases o with
      | rule r => exact ⟨.rule r, hv, leads (by cases e <;> cases st <;> trivial), reads⟩
      | build c => exact ⟨.build c, hv, leads (by cases e <;> cases st <;> trivial), reads⟩
      | pool p => exact ⟨.pool p, hv, leads (by cases e <;> cases st <;> trivial), reads⟩
      | _ => cases e <;> cases st <;> first | exact asked.elim | exact reads.elim | cases reads
  | _ => cases reads

theorem alone_name (hb : Building given d a vs file s) (hm : h.Marks a e k s)
    (hst : file[k]? = some st) (asked : e.asks st) {name : String}
    (hname : st.name? = some name) :
    (h.toValue.member "name").alone s = (.ok (.text name), s) := by
  obtain ⟨n, hv, leads, reads⟩ := hb.leads hm hst asked
  have stored : n.toValue.field? s "name" = some (.text name) := by
    cases n <;> cases st <;> cases hname <;>
      first | exact congrArg (some <| Value.text <| Prod.fst ·) reads.1 | cases reads
  have forwards : h.expected.forwards "name" = true := by
    rw [hm.expected]
    cases e <;> cases st <;> first | rfl | exact asked.elim | cases hname
  have computes : h.expected.computes "name" = true := by
    rw [Expected.computes, forwards]
    simp
  change (h.member "name").alone s = _
  rw [Handle.member, if_pos computes,
    alone_bind_ok (leads.alone_statement (hm.arena ▸ hb.opens)), if_pos forwards]
  have placed := hb.nodes n (List.mem_of_getElem? hv)
  exact alone_storedMember (by cases n <;> rfl) placed.bare stored

end Building

theorem Handle.Marks.alone_statements (hm : h.Marks a e k s) :
    h.statements.alone s = (.ok (.object (.arena a)), s) := by
  rw [Handle.statements, alone_read, ← hm.arena]
  simp [Value.stored?, Value.identity?, Object.identity, hm.bare _, Value.field?, Object.field?]

theorem Building.returns_build (hb : Building given d a vs file s) (hm : h.Marks a .rule k s)
    {name : String} {block : List BlockLine} (hst : file[k]? = some (.rule name block))
    (outputs : List String) :
    Returns (h.build (.list (outputs.map .text))) s fun h' s' =>
      Latest given d a h' .build file
        (.build ⟨name, (Slots.ofFn fun _ => []).set .outputs outputs, []⟩) s' := by
  have named := hb.alone_name hm hst trivial rfl
  rw [Handle.build]
  refine returns_bind (returns_of_alone hm.alone_statements ?_)
  refine returns_bind (returns_of_alone hb.alone_ownership ?_)
  refine returns_then (returns_buildMake named outputs a.ownership) fun b s' made => ?_
  have hm' := hm.mono made.adds.extends_
  refine returns_bind (returns_of_alone hm'.alone_statements ?_)
  exact hb.returns_insert made rfl

namespace Building

theorem returns_documentInsert {s₀ : Store} (hb : Building given d a vs file s₀) {n : Node}
    (made : Made s₀ n st s) (admits : e.admits n.toValue) :
    Returns (d.insert e n.toValue) s fun h s' => Latest given d a h e file st s' := by
  rw [DocumentId.insert]
  refine returns_bind (returns_of_alone (hb.adds made.adds).alone_statements ?_)
  exact hb.returns_insert made admits

theorem returns_rule (hb : Building given d a vs file s) (name command : String) :
    Returns (d.rule (.text name) (.text command)) s fun h s' =>
      Latest given d a h .rule file (.rule name [.binding ⟨"command", command⟩]) s' := by
  rw [DocumentId.rule]
  refine returns_then (returns_ruleMake .single name command) fun r s' made => ?_
  exact hb.returns_documentInsert made rfl

theorem returns_pool (hb : Building given d a vs file s) (name : String) (depth : Nat) :
    Returns (d.pool (.text name) (.int depth)) s fun h s' =>
      Latest given d a h .pool file (.pool name [.binding ⟨"depth", toString depth⟩] false) s' := by
  rw [DocumentId.pool]
  refine returns_then (returns_poolMake .single name depth false) fun p s' made => ?_
  exact hb.returns_documentInsert made rfl

theorem returns_phony (hb : Building given d a vs file s) (outputs : List String) :
    Returns (d.phony (.list (outputs.map .text))) s fun h s' =>
      Latest given d a h .build file
        (.build ⟨"phony", (Slots.ofFn fun _ => []).set .outputs outputs, []⟩) s' := by
  have named : ((Value.object (.rule (s.document d).phony)).member "name").alone s =
      (.ok (.text "phony"), s) :=
    alone_storedMember rfl hb.phony.bare (congrArg (some <| Value.text ·) hb.phony.name)
  rw [DocumentId.phony]
  refine returns_bind (returns_of_alone hb.alone_phony ?_)
  refine returns_then (returns_buildMake named outputs .single) fun b s' made => ?_
  exact hb.returns_documentInsert made rfl

end Building

end Handles

/-! ## Builds -/

namespace Builder

variable {given : Store} {d : DocumentId} {a : Arena} {vs : List Value}
  {file : List Statement} {h : Handle}
  {k : Nat} {s : Store}

theorem outputs_eq (b : Builder) (paths : List String) :
    b.outputs paths = .list ((paths.map (pathText b.manifest.escape .output)).map .text) := by
  rw [outputs, List.map_map]
  rfl

theorem inputs_eq (b : Builder) (paths : List String) :
    b.inputs paths = .list ((paths.map (pathText b.manifest.escape .path)).map .text) := by
  rw [inputs, List.map_map]
  rfl

theorem attachDyndep_eq (h : Handle) (file : Option String) :
    attachDyndep h file = attachBindings h (optional "dyndep" file) := by
  cases file <;> rfl

/-- A build of a plan to which nothing but its outputs has been attached. -/
def bareEdge (escape : Bool) (ruleName : String) (plan : BuildPlan) : Edge :=
  ⟨ruleName, (Slots.ofFn fun _ => []).set .outputs
    (plan.paths.outputs.map (pathText escape .output)), []⟩

theorem returns_configure (b : Builder) {ruleName : String} {plan : BuildPlan}
    (hl : Latest given d a h .build file (.build (bareEdge b.manifest.escape ruleName plan)) s) :
    Returns (b.configure h plan) s fun _ s' =>
      Latest given d a h .build file (.build (plan.edge b.manifest.escape ruleName)) s' := by
  simp only [configure, inputs_eq, outputs_eq, attachDyndep_eq]
  refine returns_then (hl.returns_addPaths .inputs _) fun _ _ hl => ?_
  refine returns_then (hl.returns_addPaths .implicitInputs _) fun _ _ hl => ?_
  refine returns_then (hl.returns_addPaths .orderOnlyInputs _) fun _ _ hl => ?_
  refine returns_then (hl.returns_addPaths .validations _) fun _ _ hl => ?_
  refine returns_then (hl.returns_addPaths .implicitOutputs _) fun _ _ hl => ?_
  refine returns_then (hl.returns_attachBindings _) fun _ _ hl => ?_
  refine returns_mono (hl.returns_attachBindings _) fun _ _ hl => ?_
  rw [Statement.addLines_addLines, ← List.map_append] at hl
  exact hl

theorem returns_addBuilds (b : Builder) (hb : Building given d a vs file s)
    (hm : h.Marks a .rule k s) {name : String} {block : List BlockLine}
    (hst : file[k]? = some (.rule name block))
    (plans : List BuildPlan) :
    Returns (b.addBuilds h plans) s fun _ s' => ∃ vs', Building given d a vs'
      (file ++ plans.map fun plan => .build (plan.edge b.manifest.escape name)) s' := by
  induction plans generalizing vs file s with
  | nil =>
      refine returns_pure ⟨vs, ?_⟩
      rw [List.map_nil, List.append_nil]
      exact hb
  | cons plan rest ih =>
      rw [addBuilds, outputs_eq]
      refine returns_then (returns_grown (tame_handleBuild h _) (hb.returns_build hm hst _))
        fun h' s₁ found => ?_
      obtain ⟨hl, hext⟩ := found
      refine returns_then (returns_grown (tame_configure b h' plan) (b.returns_configure hl))
        fun _ s₂ held => ?_
      obtain ⟨hl, hext'⟩ := held
      obtain ⟨vs', building⟩ := hl.building
      have found : (file ++ [Statement.build (plan.edge b.manifest.escape name)])[k]? =
          some (.rule name block) := by
        rw [List.getElem?_append_left (List.getElem?_eq_some_iff.mp hst).1, hst]
      refine returns_mono (ih building (hm.mono (hext.trans hext')) found) fun _ s₃ hs₃ => ?_
      rw [List.append_assoc] at hs₃
      exact hs₃

end Builder

/-! ## Declarations -/

/-- What the tables of a builder and the document say when some declarations have been
replayed. -/
structure Replayed (m : Manifest) (given : Store) (d : DocumentId) (a : Arena)
    (done : List Declaration) (b : Builder) (s : Store) : Prop where
  manifest : b.manifest = m
  building : ∃ vs, Building given d a vs (expandAll m.escape done) s
  rules : ∀ name,
    match lastSlot? m.escape (·.declaresRule name) done with
    | some k => ∃ h, b.rules.lookup name = some h ∧ h.Marks a .rule k s
    | none => b.rules.lookup name = none
  pools : ∀ name,
    match lastSlot? m.escape (·.declaresPool name) done with
    | some k => ∃ h, b.pools.lookup name = some (.declared h) ∧ h.Marks a .pool k s
    | none => b.pools.lookup name =
        if name = DocumentId.consoleName then some (.builtIn (s.document d).console) else none

namespace Replayed

variable {m : Manifest} {d : DocumentId} {a : Arena} {done : List Declaration} {b : Builder}
  {s s' : Store} {declaration : Declaration}

theorem rule (h : Replayed m given d a done b s) {name : String} {hd : Handle}
    (hr : b.rules.lookup name = some hd) :
    ∃ k block, hd.Marks a .rule k s ∧
      (expandAll m.escape done)[k]? = some (.rule name block) := by
  have := h.rules name
  cases hslot : lastSlot? m.escape (·.declaresRule name) done with
  | none =>
      rw [hslot, hr] at this
      cases this
  | some k =>
      rw [hslot, hr] at this
      obtain ⟨hd', heq, marks⟩ := this
      obtain rfl : hd = hd' := Option.some.inj heq
      obtain ⟨declaration, declares, found⟩ := exists_of_lastSlot? hslot fun declaration hp => by
        cases declaration <;> first | cases hp | exact List.cons_ne_nil _ _
      cases declaration <;> try cases declares
      next other command poolName bindings builds =>
        obtain rfl : other = name := by simpa [Declaration.declaresRule] using declares
        exact ⟨k, _, marks, found⟩

theorem pool (h : Replayed m given d a done b s) {name : String} {entry : PoolEntry}
    (hp : b.pools.lookup name = some entry) :
    (name = DocumentId.consoleName ∧ entry = .builtIn (s.document d).console) ∨
      ∃ hd k block, entry = .declared hd ∧ hd.Marks a .pool k s ∧
        (expandAll m.escape done)[k]? = some (.pool name block false) := by
  have := h.pools name
  cases hslot : lastSlot? m.escape (·.declaresPool name) done with
  | none =>
      rw [hslot, hp] at this
      by_cases hname : name = DocumentId.consoleName
      · rw [if_pos hname, Option.some.injEq] at this
        exact .inl ⟨hname, this⟩
      · rw [if_neg hname] at this
        cases this
  | some k =>
      rw [hslot, hp] at this
      obtain ⟨hd, heq, marks⟩ := this
      obtain ⟨declaration, declares, found⟩ := exists_of_lastSlot? hslot fun declaration hp => by
        cases declaration <;> first | cases hp | exact List.cons_ne_nil _ _
      cases declaration <;> try cases declares
      next other depth bindings =>
        obtain rfl : other = name := by simpa [Declaration.declaresPool] using declares
        exact .inr ⟨hd, k, _, Option.some.inj heq, marks, found⟩

theorem alone_poolName (h : Replayed m given d a done b s) {name : String} {entry : PoolEntry}
    (hp : b.pools.lookup name = some entry) (hext : s.Extends s') {vs : List Value}
    {more : List Statement} (hb : Building given d a vs (expandAll m.escape done ++ more) s') :
    (entry.toValue.member "name").alone s' = (.ok (.text name), s') := by
  rcases h.pool hp with ⟨rfl, rfl⟩ | ⟨hd, k, block, rfl, marks, found⟩
  · obtain ⟨vs, building⟩ := h.building
    rw [← hext.document d building.known]
    exact alone_storedMember rfl hb.console.bare
      (congrArg (some <| Value.text ·) hb.console.name)
  · have found' : (expandAll m.escape done ++ more)[k]? = some (.pool name block false) := by
      rw [List.getElem?_append_left (List.getElem?_eq_some_iff.mp found).1, found]
    exact hb.alone_name (marks.mono hext) found' trivial rfl

theorem concat (h : Replayed m given d a done b s) {b' : Builder} (hext : s.Extends s')
    (manifest : b'.manifest = m)
    (building : ∃ vs, Building given d a vs
      (expandAll m.escape done ++ declaration.expand m.escape) s')
    (rules : ∀ name, if declaration.declaresRule name then
      ∃ hd, b'.rules.lookup name = some hd ∧ hd.Marks a .rule (expandAll m.escape done).length s'
      else b'.rules.lookup name = b.rules.lookup name)
    (pools : ∀ name, if declaration.declaresPool name then
      ∃ hd, b'.pools.lookup name = some (.declared hd) ∧
        hd.Marks a .pool (expandAll m.escape done).length s'
      else b'.pools.lookup name = b.pools.lookup name) :
    Replayed m given d a (done ++ [declaration]) b' s' := by
  obtain ⟨vs, old⟩ := h.building
  refine ⟨manifest, ?_, fun name => ?_, fun name => ?_⟩
  · rw [expandAll_append, expandAll_singleton]
    exact building
  · rw [lastSlot?_concat]
    have new := rules name
    by_cases declares : declaration.declaresRule name
    · rw [if_pos declares] at new ⊢
      exact new
    · rw [if_neg declares] at new ⊢
      have kept := h.rules name
      cases hslot : lastSlot? m.escape (·.declaresRule name) done with
      | none =>
          rw [hslot] at kept
          exact new.trans kept
      | some k =>
          rw [hslot] at kept
          obtain ⟨hd, heq, marks⟩ := kept
          exact ⟨hd, new.trans heq, marks.mono hext⟩
  · rw [lastSlot?_concat]
    have new := pools name
    by_cases declares : declaration.declaresPool name
    · rw [if_pos declares] at new ⊢
      exact new
    · rw [if_neg declares] at new ⊢
      have kept := h.pools name
      cases hslot : lastSlot? m.escape (·.declaresPool name) done with
      | none =>
          rw [hslot] at kept
          rw [← hext.document d old.known] at kept
          exact new.trans kept
      | some k =>
          rw [hslot] at kept
          obtain ⟨hd, heq, marks⟩ := kept
          exact ⟨hd, new.trans heq, marks.mono hext⟩

theorem lookup_rule (h : Replayed m given d a done b s) (name : String) :
    b.rules.lookup name = none ↔ done.any (·.declaresRule name) = false := by
  have entry := h.rules name
  rw [← @lastSlot?_eq_none m.escape]
  cases hslot : lastSlot? m.escape (·.declaresRule name) done with
  | none =>
      rw [hslot] at entry
      simp [entry]
  | some k =>
      rw [hslot] at entry
      obtain ⟨hd, found, -⟩ := entry
      simp [found]

theorem lookup_pool (h : Replayed m given d a done b s) (name : String) :
    b.pools.lookup name = none ↔
      ¬ (name = DocumentId.consoleName ∨ done.any (·.declaresPool name) = true) := by
  have entry := h.pools name
  rw [not_or, Bool.not_eq_true, ← @lastSlot?_eq_none m.escape]
  cases hslot : lastSlot? m.escape (·.declaresPool name) done with
  | none =>
      rw [hslot] at entry
      simp [entry]
  | some k =>
      rw [hslot] at entry
      obtain ⟨hd, found, -⟩ := entry
      simp [found]

/-- What comes of declarations: they have been replayed, or a fault of them has come up. -/
def Outcome (m : Manifest) (given : Store) (d : DocumentId) (a : Arena) (done : List Declaration)
    (fault : Option (ReferenceFault × Nat)) (r : Builder × Except Fault Unit) (s : Store) : Prop :=
  match fault with
  | none => r.2 = .ok () ∧ Replayed m given d a done r.1 s
  | some (fault, position) => r.2 = .error (.reference fault position)

theorem Outcome.replayed {fault : Option (ReferenceFault × Nat)} {r : Builder × Except Fault Unit}
    (h : Outcome m given d a done fault r s) (ok : r.2 = .ok ()) :
    Replayed m given d a done r.1 s := by
  cases fault with
  | none => exact h.2
  | some fault => cases h.symm.trans ok

/-- A declaration that is put into the document by one action and into no table. -/
theorem returns_plain (h : Replayed m given d a done b s) {p : Action Unit} (tame : p.Tame true)
    (hp : p.Returns s fun _ s' => ∃ vs,
      Building given d a vs (expandAll m.escape done ++ declaration.expand m.escape) s')
    (noRule : ∀ name, declaration.declaresRule name = false)
    (noPool : ∀ name, declaration.declaresPool name = false) :
    Returns (do return (b, ← p.attempt)) s fun r s' =>
      Outcome m given d a (done ++ [declaration]) none r s' := by
  refine returns_then (returns_attempt (returns_grown tame hp)) fun r s' attempted => ?_
  obtain ⟨u, rfl, building, hext⟩ := attempted
  refine returns_pure ⟨rfl, ?_⟩
  refine h.concat hext h.manifest building (fun name => ?_) fun name => ?_
  · rw [noRule, if_neg Bool.false_ne_true]
  · rw [noPool, if_neg Bool.false_ne_true]

/-- A rule gets its pool, if it has one, and then its bindings. -/
theorem returns_addRule (h : Replayed m given d a done b s) (position : Nat) {name command : String}
    {poolName : Option String} {bindings : List Binding} {builds : List BuildPlan}
    (right : (Declaration.rule name command poolName bindings builds).fault? done = none) :
    Returns (b.addRule d position name command poolName bindings) s fun hd s' =>
      Latest given d a hd .rule (expandAll m.escape done)
        (.rule name ((⟨"command", command⟩ :: optional "pool" poolName ++ bindings).map .binding))
        s' := by
  obtain ⟨vs, building⟩ := h.building
  rw [Builder.addRule]
  refine returns_then (returns_grown (tame_rule d _ _) (building.returns_rule name command))
    fun hd s₁ found => ?_
  obtain ⟨hl, hext⟩ := found
  have joined : Returns (b.joinPool hd position name poolName) s₁ fun _ s' =>
      Latest given d a hd .rule (expandAll m.escape done) (.rule name
        ((⟨"command", command⟩ :: optional "pool" poolName).map .binding)) s' := by
    cases poolName with
    | none => exact returns_pure hl
    | some other =>
        rw [Builder.joinPool]
        cases hentry : b.pools.lookup other with
        | none =>
            rw [Declaration.fault?, if_neg ((h.lookup_pool other).mp hentry)] at right
            cases right
        | some entry =>
            obtain ⟨vs', building'⟩ := hl.building
            change Returns ((Receiver.handle hd).usePool entry.toValue) s₁ _
            rw [Receiver.usePool]
            refine returns_bind (returns_of_alone (h.alone_poolName hentry hext building') ?_)
            exact hl.returns_attachBindings [⟨"pool", other⟩]
  refine returns_then joined fun _ s₂ hl => ?_
  refine returns_then (hl.returns_attachBindings bindings) fun _ s₃ hl => returns_pure ?_
  rw [Statement.addLines, ← List.map_append] at hl
  exact hl

/-- The rule itself is in the document by the time its pool is looked for. -/
theorem fails_addRule (h : Replayed m given d a done b s) (position : Nat) {name command : String}
    {poolName : Option String} {bindings : List Binding} {builds : List BuildPlan}
    {fault : ReferenceFault}
    (wrong : (Declaration.rule name command poolName bindings builds).fault? done = some fault) :
    Fails (b.addRule d position name command poolName bindings) s (.reference fault position) := by
  obtain ⟨vs, building⟩ := h.building
  cases poolName with
  | none => cases wrong
  | some other =>
      rw [Declaration.fault?] at wrong
      split at wrong
      · cases wrong
      · next free =>
          cases wrong
          rw [Builder.addRule]
          refine (building.returns_rule name command).fails fun hd s₁ _ => Fails.bind ?_ _
          rw [Builder.joinPool, (h.lookup_pool other).mpr free]
          exact fails_fail _

theorem returns_addBuild (h : Replayed m given d a done b s) (position : Nat) {plan : BuildPlan}
    {ruleName : String} (right : (Declaration.build plan ruleName).fault? done = none) :
    Returns (b.addBuild d position plan ruleName) s fun _ s' => ∃ vs, Building given d a vs
      (expandAll m.escape done ++ [.build (plan.edge m.escape ruleName)]) s' := by
  obtain ⟨vs, building⟩ := h.building
  have configured {name : String} {hd : Handle} {s' : Store}
      (hl : Latest given d a hd .build (expandAll m.escape done)
        (.build ⟨name, (Slots.ofFn fun _ => []).set .outputs
          (plan.paths.outputs.map (pathText b.manifest.escape .output)), []⟩) s') :
      Returns (b.configure hd plan) s' fun _ s'' => ∃ vs, Building given d a vs
        (expandAll m.escape done ++ [.build (plan.edge m.escape name)]) s'' := by
    refine returns_mono (b.returns_configure hl) fun _ s'' hl => ?_
    rw [h.manifest] at hl
    exact hl.building
  rw [Builder.addBuild, Builder.outputs_eq]
  split
  · next hphony =>
      subst hphony
      exact returns_then (building.returns_phony _) fun hd s' hl => configured hl
  · next other =>
      cases hlookup : b.rules.lookup ruleName with
      | none =>
          have undeclared := (h.lookup_rule ruleName).mp hlookup
          rw [Declaration.fault?, if_neg (by simp [other, undeclared])] at right
          cases right
      | some hd =>
          obtain ⟨k, block, marks, found⟩ := h.rule hlookup
          exact returns_then (building.returns_build marks found _) fun hd' s' hl => configured hl

theorem fails_addBuild (h : Replayed m given d a done b s) (position : Nat) {plan : BuildPlan}
    {ruleName : String} {fault : ReferenceFault}
    (wrong : (Declaration.build plan ruleName).fault? done = some fault) :
    Fails (b.addBuild d position plan ruleName) s (.reference fault position) := by
  rw [Declaration.fault?] at wrong
  split at wrong
  · cases wrong
  · next free =>
      cases wrong
      rw [not_or, Bool.not_eq_true] at free
      rw [Builder.addBuild, if_neg free.1, (h.lookup_rule ruleName).mpr free.2]
      exact fails_fail _

theorem returns_addPool (h : Replayed m given d a done b s) (name : String) (depth : Nat)
    (bindings : List Binding) :
    Returns (Builder.addPool d name depth bindings) s fun hd s' =>
      Latest given d a hd .pool (expandAll m.escape done)
        (.pool name ((⟨"depth", toString depth⟩ :: bindings).map .binding) false) s' := by
  obtain ⟨vs, building⟩ := h.building
  rw [Builder.addPool]
  refine returns_then (building.returns_pool name depth) fun hd s₁ hl => ?_
  exact returns_then (hl.returns_attachBindings bindings) fun _ s₂ hl => returns_pure hl

/-- If something is wrong with a declaration, then that comes up and no table has changed. -/
theorem returns_add_fault (h : Replayed m given d a done b s) (position : Nat)
    {declaration : Declaration} {fault : ReferenceFault} (wrong : declaration.fault? done = some fault) :
    Returns (b.add d position declaration) s fun r _ =>
      r = (b, .error (.reference fault position)) := by
  cases declaration with
  | rule name command poolName bindings builds =>
      have failed := (h.fails_addRule position wrong).attempt Fault.noConfusion
      rw [Builder.add]
      refine returns_then failed fun r s₁ hr => ?_
      subst hr
      exact returns_pure rfl
  | build plan ruleName =>
      have failed := (h.fails_addBuild position wrong).attempt Fault.noConfusion
      refine returns_then failed fun r s₁ hr => ?_
      subst hr
      exact returns_pure rfl
  | foreign typeName =>
      cases wrong
      exact returns_pure rfl
  | _ => cases wrong

theorem returns_add_rule (h : Replayed m given d a done b s) (position : Nat) {name : String}
    {command : String} {poolName : Option String} {bindings : List Binding} {builds : List BuildPlan}
    (right : (Declaration.rule name command poolName bindings builds).fault? done = none) :
    Returns (b.add d position (.rule name command poolName bindings builds)) s fun r s' =>
      Outcome m given d a (done ++ [.rule name command poolName bindings builds]) none r s' := by
  rw [Builder.add]
  refine returns_then (returns_attempt (returns_grown (Builder.tame_builderRule b d ..)
    (h.returns_addRule position right))) fun r s₁ added => ?_
  obtain ⟨hd, rfl, hl, hext⟩ := added
  obtain ⟨vs₁, building₁⟩ := hl.building
  have found := List.getElem?_concat_length (l := expandAll m.escape done)
    (a := .rule name
      ((⟨"command", command⟩ :: optional "pool" poolName ++ bindings).map .binding))
  refine returns_then (returns_attempt (returns_grown
    (Builder.tame_addBuilds (b.setRule name hd) hd builds)
    ((b.setRule name hd).returns_addBuilds building₁ hl.marks found builds)))
    fun outcome s₂ replayed => returns_pure ?_
  obtain ⟨u, rfl, building₂, hext'⟩ := replayed
  refine ⟨rfl, h.concat (hext.trans hext') h.manifest ?_ (fun other => ?_) fun other => ?_⟩
  · rw [Builder.setRule, h.manifest, List.append_assoc] at building₂
    exact building₂
  · rw [Builder.setRule, lookup_setKey]
    by_cases heq : other = name
    · subst heq
      simpa [Declaration.declaresRule] using hl.marks.mono hext'
    · simp [Declaration.declaresRule, heq, Ne.symm heq]
  · rfl

theorem returns_add_pool (h : Replayed m given d a done b s) (position : Nat) (name : String)
    (depth : Nat) (bindings : List Binding) :
    Returns (b.add d position (.pool name depth bindings)) s fun r s' =>
      Outcome m given d a (done ++ [.pool name depth bindings]) none r s' := by
  rw [Builder.add]
  refine returns_then (returns_attempt (returns_grown (Builder.tame_builderPool d _ _ _)
    (h.returns_addPool name depth bindings))) fun r s₁ added => ?_
  obtain ⟨hd, rfl, hl, hext⟩ := added
  refine returns_pure ⟨rfl, h.concat hext h.manifest hl.building (fun other => rfl) fun other => ?_⟩
  rw [Builder.setPool, lookup_setKey]
  by_cases heq : other = name
  · subst heq
    simpa [Declaration.declaresPool] using hl.marks
  · simp [Declaration.declaresPool, heq, Ne.symm heq]

theorem returns_add_right (h : Replayed m given d a done b s) (position : Nat)
    {declaration : Declaration} (right : declaration.fault? done = none) :
    Returns (b.add d position declaration) s fun r s' =>
      Outcome m given d a (done ++ [declaration]) none r s' := by
  obtain ⟨vs, building⟩ := h.building
  cases declaration with
  | rule name command poolName bindings builds => exact h.returns_add_rule position right
  | pool name depth bindings => exact h.returns_add_pool position name depth bindings
  | build plan ruleName =>
      exact h.returns_plain (Builder.tame_builderBuild b d position plan ruleName)
        (h.returns_addBuild position right) (fun _ => rfl) fun _ => rfl
  | phony plan =>
      refine h.returns_plain (tame_bind (tame_phony d _) fun hd => Builder.tame_configure b hd plan)
        ?_ (fun _ => rfl) fun _ => rfl
      have right : (Declaration.build plan "phony").fault? done = none := by
        rw [Declaration.fault?, if_pos (.inl rfl)]
      have built := h.returns_addBuild position right
      rw [Builder.addBuild, if_pos (show "phony" = DocumentId.phonyName from rfl)] at built
      exact built
  | binding v =>
      refine h.returns_plain (tame_binding d _ _) ?_ (fun _ => rfl) fun _ => rfl
      exact returns_bind (building.returns_add (.binding · v) rfl rfl fun _ => rfl)
  | comment text =>
      refine h.returns_plain (tame_comment d _) ?_ (fun _ => rfl) fun _ => rfl
      exact returns_bind (building.returns_add (.comment · text) rfl rfl fun _ => rfl)
  | defaults outputs =>
      refine h.returns_plain (tame_defaults d _) ?_ (fun _ => rfl) fun _ => rfl
      rw [DocumentId.defaults, makeDefaults, Builder.inputs_eq, h.manifest]
      refine returns_bind (returns_bind (returns_of_alone (alone_arguments _ s) ?_))
      exact building.returns_add (.defaults · _) rfl rfl fun _ => rfl
  | subninja path =>
      refine h.returns_plain (tame_subninja d _) ?_ (fun _ => rfl) fun _ => rfl
      rw [Builder.input, Builder.escaped, h.manifest]
      exact returns_bind (building.returns_add (.subninja · _) rfl rfl fun _ => rfl)
  | inclusion path =>
      refine h.returns_plain (tame_inclusion d _) ?_ (fun _ => rfl) fun _ => rfl
      rw [Builder.input, Builder.escaped, h.manifest]
      exact returns_bind (building.returns_add (.inclusion · _) rfl rfl fun _ => rfl)
  | foreign typeName => cases right

/-- A declaration is replayed unless something is wrong with it, and then that comes up. -/
theorem returns_add (h : Replayed m given d a done b s) (position : Nat)
    (declaration : Declaration) :
    Returns (b.add d position declaration) s fun r s' =>
      Outcome m given d a (done ++ [declaration])
        ((declaration.fault? done).map (·, position)) r s' := by
  cases hfault : declaration.fault? done with
  | some fault =>
      refine returns_mono (h.returns_add_fault position hfault) fun r s₁ hr => ?_
      subst hr
      rfl
  | none => exact h.returns_add_right position hfault

/-- Declarations are replayed in order, up to the first with which something is wrong. -/
theorem returns_addAll (h : Replayed m given d a done b s) (position : Nat)
    (declarations : List Declaration) :
    Returns (b.addAll d position declarations) s fun r s' =>
      Outcome m given d a (done ++ declarations) (firstFault? done position declarations) r s' := by
  induction declarations generalizing b s done position with
  | nil =>
      refine returns_pure ⟨rfl, ?_⟩
      rw [List.append_nil]
      exact h
  | cons declaration rest ih =>
      rw [Builder.addAll, firstFault?]
      refine returns_then (h.returns_add position declaration) fun r s' hr => ?_
      obtain ⟨b', outcome⟩ := r
      cases hfault : declaration.fault? done with
      | some fault =>
          rw [hfault] at hr
          obtain rfl : outcome = .error (.reference fault position) := hr
          exact returns_pure rfl
      | none =>
          rw [hfault] at hr
          obtain ⟨rfl, replayed⟩ := hr
          rw [← List.singleton_append, ← List.append_assoc]
          exact ih replayed (position + 1)

theorem ensures_addAll (h : Replayed m given d a done b s) (position : Nat)
    (declarations : List Declaration) :
    Ensures (b.addAll d position declarations) s fun r s' =>
      r.2 = .ok () → Replayed m given d a (done ++ declarations) r.1 s' :=
  ensures_mono (h.returns_addAll position declarations).ensures fun _ _ => Outcome.replayed

end Replayed

end NinjaFile
