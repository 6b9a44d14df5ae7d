import NinjaFile.Proofs.Document.Start
import NinjaFile.Proofs.Manifest.Replay

/-!
# Documents of manifests

A builder that succeeds gives a document of what its manifest asks for.
-/

namespace NinjaFile

open Program Store Action Manifest

namespace DocumentId

/-- The statements of a document, as they are read to be written out. -/
def contents (d : DocumentId) : Action (List Value) := do (← d.statements).snapshot

end DocumentId

/-- A handle of an arena that gives the statement at a place. -/
structure Handle.Finds (h : Handle) (a : Arena) (e : Expected) (k : Nat) (v : Value) (s : Store) :
    Prop where
  arena : h.arena = a
  expected : h.expected = e
  index : h.index = k
  statement : h.statement.alone s = (.ok v, s)

/-- A document holds what a manifest asks for, and a builder knows where in it the last rule
and the last pool of each name are. -/
structure Manifest.Expanded (m : Manifest) (b : Builder) (d : DocumentId) (vs : List Value)
    (s : Store) : Prop where
  contents : d.contents.alone s = (.ok vs, s)
  reads : List.Forall₂ s.Reads vs m.expand
  rules : ∀ name,
    match m.ruleSlot? name with
    | some k => ∃ h v, b.rules.lookup name = some h ∧ vs[k]? = some v ∧
        h.Finds (s.document d).arena .rule k v s
    | none => b.rules.lookup name = none
  pools : ∀ name,
    match m.poolSlot? name with
    | some k => ∃ h v, b.pools.lookup name = some (.declared h) ∧ vs[k]? = some v ∧
        h.Finds (s.document d).arena .pool k v s
    | none => b.pools.lookup name =
        if name = DocumentId.consoleName then some (.builtIn (s.document d).console) else none

namespace Manifest

/-! ## Settings -/

theorem mem_setEntry {key : String} {v : Value} {config : List (Value × Value)}
    {e : Value × Value} (h : e ∈ Builder.setEntry key v config) :
    e ∈ config ∨ e = (.text key, v) := by
  induction config with
  | nil => exact .inr (List.mem_singleton.mp h)
  | cons head rest ih =>
      obtain ⟨k, w⟩ := head
      rw [Builder.setEntry] at h
      split at h
      · next hk =>
          have hkey : k = .text key := by
            cases k with
            | text s => exact congrArg Value.text (Option.some.inj hk)
            | _ => cases hk
          rcases List.mem_cons.mp h with rfl | h
          · exact .inr (by rw [hkey])
          · exact .inl (List.mem_cons_of_mem _ h)
      · rcases List.mem_cons.mp h with rfl | h
        · exact .inl (List.mem_cons_self ..)
        · exact (ih h).imp_left (List.mem_cons_of_mem _)

theorem typed_config {config : List (Value × Value)} (typed : TypedConfig config) (m : Manifest) :
    TypedConfig (Builder.ofManifest m config).config := by
  rw [Builder.ofManifest]
  cases m.threadSafe with
  | false => exact typed
  | true =>
      constructor
      · intro v hv
        rcases mem_setEntry hv with hv | hv
        · exact typed.threadSafe v hv
        · exact ⟨true, (Prod.mk.inj hv).2⟩
      · intro v hv
        rcases mem_setEntry hv with hv | hv
        · exact typed.enableLogger v hv
        · exact absurd (Value.text.inj (Prod.mk.inj hv).1) (by decide)
      · intro v hv
        rcases mem_setEntry hv with hv | hv
        · exact typed.logLevel v hv
        · exact absurd (Value.text.inj (Prod.mk.inj hv).1) (by decide)

end Manifest

/-! ## Building -/

section Building

variable {m : Manifest} {b : Builder} {d : DocumentId} {a : Arena} {s : Store}

theorem replayed_nil (hb : Building given d a [] [] s) (hm : b.manifest = m) (rules : b.rules = [])
    (pools : b.pools = [(DocumentId.consoleName, .builtIn (s.document d).console)]) :
    Replayed m given d a [] b s where
  manifest := hm
  building := ⟨[], hb⟩
  rules name := by
    rw [lastSlot?, rules]
    rfl
  pools name := by
    rw [lastSlot?, pools, List.lookup_cons]
    by_cases h : name = DocumentId.consoleName
    · simp [h]
    · simp [h, beq_eq_false_iff_ne.mpr h]

/-- When all declarations have been replayed, the document holds what they ask for. -/
theorem Replayed.expanded (h : Replayed m given d a m.declarations b s) :
    ∃ vs, m.Expanded b d vs s := by
  obtain ⟨vs, hb⟩ := h.building
  have items : a.statements.snapshot.alone s = (.ok vs, s) := by
    rw [ListId.alone_snapshot hb.opens, hb.items]
  have finds {hd : Handle} {e : Expected} {k : Nat} {st : Statement} (marks : hd.Marks a e k s)
      (found : (expandAll m.escape m.declarations)[k]? = some st) (asked : e.asks st) :
      ∃ v, vs[k]? = some v ∧ hd.Finds (s.document d).arena e k v s := by
    obtain ⟨n, hv, leads, -⟩ := hb.leads marks found asked
    refine ⟨n.toValue, hv, marks.arena.trans hb.arena.symm, marks.expected, marks.index, ?_⟩
    exact leads.alone_statement (marks.arena ▸ hb.opens)
  refine ⟨vs, ?_, hb.reads, fun name => ?_, fun name => ?_⟩
  · rw [DocumentId.contents, alone_bind_ok hb.alone_statements]
    exact items
  · have entry := h.rules name
    rw [ruleSlot?]
    cases hslot : lastSlot? m.escape (·.declaresRule name) m.declarations with
    | none =>
        rw [hslot] at entry
        exact entry
    | some k =>
        rw [hslot] at entry
        obtain ⟨hd, hlookup, marks⟩ := entry
        obtain ⟨k', block, marks', found⟩ := h.rule hlookup
        obtain rfl : k' = k := Int.ofNat.inj (marks'.index.symm.trans marks.index)
        obtain ⟨v, hv, hfinds⟩ := finds marks found trivial
        exact ⟨hd, v, hlookup, hv, hfinds⟩
  · have entry := h.pools name
    rw [poolSlot?]
    cases hslot : lastSlot? m.escape (·.declaresPool name) m.declarations with
    | none =>
        rw [hslot] at entry
        exact entry
    | some k =>
        rw [hslot] at entry
        obtain ⟨hd, hlookup, marks⟩ := entry
        rcases h.pool hlookup with ⟨-, heq⟩ | ⟨hd', k', block, heq, marks', found⟩
        · cases heq
        · cases heq
          obtain rfl : k' = k := Int.ofNat.inj (marks'.index.symm.trans marks.index)
          obtain ⟨v, hv, hfinds⟩ := finds marks found trivial
          exact ⟨hd, v, hlookup, hv, hfinds⟩

end Building

namespace Builder

variable {m : Manifest} {config : List (Value × Value)} {b : Builder} {d : DocumentId}
  {s s' : Store}

/-- If a builder succeeds, then its document holds what the manifest asks for. -/
theorem build_expanded (typed : TypedConfig config) (fresh : s.Fresh)
    (h : (ofManifest m config).build.alone s = (.ok (b, .ok d), s')) :
    ∃ vs, m.Expanded b d vs s' := by
  have built : Ensures (ofManifest m config).build s fun r s' =>
      ∀ d, r.2 = .ok d → ∃ vs, m.Expanded r.1 d vs s' := by
    rw [build]
    refine ensures_bind (ensures_attempt ?_ fun fault s₁ => ensures_pure fun d h => by cases h)
    refine ensures_mono (DocumentId.ensures_make fresh (typed_config typed m))
      fun d s₁ found => ?_
    obtain ⟨a, hb⟩ := found
    refine ensures_bind (ensures_of_alone (alone_read _ _) ?_)
    have start := replayed_nil hb (m := m) (b := { ofManifest m config with
      pools := [(DocumentId.consoleName, .builtIn (s₁.document d).console)] }) rfl rfl rfl
    refine ensures_then (start.ensures_addAll 0 m.declarations) fun r s₂ hr => ensures_pure ?_
    obtain ⟨b', outcome⟩ := r
    intro d' hd'
    cases outcome with
    | error fault => cases hd'
    | ok u =>
        obtain rfl : d = d' := Except.ok.inj hd'
        exact (hr rfl).expanded
  exact built (b, .ok d) s' h d rfl

/-- A manifest with a rule that is declared twice and with builds of either rule. -/
def redeclaring : Manifest where
  escape := true
  threadSafe := true
  declarations :=
    [.pool "link" 2 [],
      .rule "cc" "cc $in" (some "link") [⟨"depfile", "d"⟩]
        [⟨⟨["a b"], [], ["c:d"], [], [], []⟩, some "e", []⟩],
      .rule "cc" "clang $in" (some "console") [] [],
      .build ⟨⟨["x y"], ["o"], ["z"], ["i"], ["j"], ["v"]⟩, none, [⟨"k", "v w"⟩]⟩ "cc",
      .phony ⟨⟨["all"], [], ["x y"], [], [], []⟩, none, []⟩,
      .defaults ["all"]]

set_option maxRecDepth 10000 in
theorem build_redeclaring_expanded :
    ∃ b d vs s', (ofManifest redeclaring [(.text "enable_logger", .bool true)]).build.alone
        (Store.ofFiles ⟨[], []⟩) = (.ok (b, .ok d), s') ∧
      redeclaring.Expanded b d vs s' := by
  have typed : TypedConfig [(.text "enable_logger", .bool true)] := by
    constructor <;> intro v hv <;> simp at hv
    exact ⟨true, hv⟩
  have ok : (match ((ofManifest redeclaring
      [(.text "enable_logger", .bool true)]).build.alone (Store.ofFiles ⟨[], []⟩)).1 with
    | .ok (_, .ok _) => true
    | _ => false) = true := by decide +kernel
  cases hrun : (ofManifest redeclaring [(.text "enable_logger", .bool true)]).build.alone
      (Store.ofFiles ⟨[], []⟩) with
  | mk r s' =>
      rw [hrun] at ok
      split at ok
      · next b d heq =>
          obtain rfl : r = .ok (b, .ok d) := heq
          obtain ⟨vs, expanded⟩ := build_expanded typed (fresh_ofFiles ⟨[], []⟩) hrun
          exact ⟨b, d, vs, s', rfl, expanded⟩
      · cases ok

end Builder

end NinjaFile
