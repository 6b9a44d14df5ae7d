import NinjaFile.Proofs.Document.Building
import NinjaFile.Rendering
import NinjaFile.Script.Formatting

/-!
# Rendering statements

A statement that nothing hides is read off as what it says, and the store is left as it
was.
-/

namespace NinjaFile

open Action Program Store

/-! ## What can be read off -/

/-- A value that says a statement, and that can be asked for it: nothing is assigned to it,
to its lines or to its kind, and nobody is in its lists. -/
structure Store.Legible (s : Store) (v : Value) (st : Statement) : Prop where
  reads : s.Reads v st
  bare : ∀ i, v.identity? = some i → s.Bare i
  kind : s.Bare (.kind st.kind)
  lists : ∀ n, v.node? = some n → ∀ q ∈ n.parts, s.Open (s.part n q)
  lines : ∀ n, v.node? = some n → ∀ w ∈ (s.list (s.part n .bindings)).items,
    ∀ i, w.identity? = some i → s.Bare i

namespace Statement

/-- What is read off a statement; all built-in pools look alike. -/
def shown (st : Statement) : Statement := if st.isHidden then .pool "" [] true else st

theorem shown_of_visible {st : Statement} (h : st.isHidden = false) : st.shown = st := by
  simp [shown, h]

@[simp] theorem isHidden_shown (st : Statement) : st.shown.isHidden = st.isHidden := by
  unfold shown
  split
  · next hidden => exact hidden.symm
  · rfl

end Statement

variable {s : Store} {v : Value} {st : Statement}

namespace Store

theorem Reads.kind_eq (h : s.Reads v st) : ∃ o, v = .object o ∧ o.kind? = some st.kind := by
  cases v with
  | object o =>
      refine ⟨o, rfl, ?_⟩
      cases o with
      | rule | build | pool => cases st <;> first | rfl | exact h.elim
      | comment | binding | defaults | subninja | inclusion =>
          obtain rfl := h
          rfl
      | _ => exact h.elim
  | _ => exact h.elim

theorem Legible.alone_member (h : s.Legible v st) {name : String} {w : Value}
    (hw : v.field? s name = some w) : (v.member name).alone s = (.ok w, s) := by
  obtain ⟨o, rfl, kind⟩ := h.reads.kind_eq
  have stored : (Value.object o).member name = (Value.object o).storedMember name := by
    cases o <;> first | rfl | exact nomatch kind
  rw [stored]
  exact alone_storedMember rfl (h.bare _ rfl) hw

theorem Legible.alone_kindOf (h : s.Legible v st) :
    v.kindOf.alone s = (.ok (.kind st.kind), s) := by
  obtain ⟨o, rfl, kind⟩ := h.reads.kind_eq
  exact h.alone_member (by cases o <;> exact congrArg (Option.map Value.kind) kind)

end Store

namespace Value

/-! ## Words -/

theorem checkWords_texts (words : List String) : checkWords (words.map .text) = .ok () := by
  have none (position : Nat) : firstOther position (words.map .text) = none := by
    induction words generalizing position with
    | nil => rfl
    | cons word rest ih => exact ih (position + 1)
  rw [checkWords, none]

theorem group_texts (marker : String) (words : List String) :
    group marker (words.map .text) = (Layout.group marker words).map .text := by
  cases words <;> rfl

theorem texts_map_text (words : List String) : texts (words.map .text) = words := by
  induction words with
  | nil => rfl
  | cons word rest ih => exact congrArg (word :: ·) ih

theorem paths_texts (ruleName : String) (paths : Slots (List String)) :
    Value.paths (.text ruleName) (paths.map fun words => words.map .text) = .ok paths := by
  have outputs := checkWords_texts
    ("build" :: paths.outputs ++ Layout.group "|" paths.implicitOutputs)
  have inputs := checkWords_texts
    (ruleName :: paths.inputs ++ Layout.group "|" paths.implicitInputs ++
      Layout.group "||" paths.orderOnlyInputs ++ Layout.group "|@" paths.validations)
  simp only [List.cons_append, List.map_cons, List.map_append, ← group_texts] at outputs inputs
  have back : (paths.map fun words => words.map Value.text).map texts = paths :=
    Slots.ext_get fun slot => by simp [texts_map_text]
  change (do
    checkWords (text "build" ::
      (paths.outputs.map text ++ group "|" (paths.implicitOutputs.map text)))
    checkWords (text ruleName ::
      (paths.inputs.map text ++ group "|" (paths.implicitInputs.map text) ++
        group "||" (paths.orderOnlyInputs.map text) ++ group "|@" (paths.validations.map text)))
    return (paths.map fun words => words.map Value.text).map texts) = Except.ok paths
  rw [outputs, inputs, back]
  rfl

end Value

/-! ## Lists -/

theorem Value.alone_iterate_list {l : ListId} (h : s.Open l) :
    (Value.object (.list l)).iterate.alone s = (.ok (s.list l).items, s) :=
  ListId.alone_snapshot h

theorem Value.alone_spread_list {l : ListId} (h : s.Open l) :
    (Value.object (.list l)).spread.alone s = (.ok (s.list l).items, s) :=
  ListId.alone_snapshot h

/-! ## Blocks -/

namespace Printer

variable (p : Printer)

theorem alone_blockLine {n : Serial} {b : Binding} (bare : s.Bare (.serial n)) :
    (p.blockLine (.object (.binding n b))).alone s = (.ok (.binding b), s) := by
  rw [blockLine, alone_read_bind, bare.field rfl]
  rfl

theorem alone_blockLines {items : List Value} {block : List BlockLine}
    (lines : items.map Value.line? = block.map some)
    (bare : ∀ w ∈ items, ∀ i, w.identity? = some i → s.Bare i) :
    (p.blockLines items).alone s = (.ok block, s) := by
  induction items generalizing block with
  | nil =>
      obtain rfl : block = [] := by simpa using lines.symm
      rfl
  | cons w rest ih =>
      cases block with
      | nil => exact nomatch lines
      | cons line block =>
          obtain ⟨first, others⟩ := List.cons.inj lines
          obtain ⟨n, b, rfl, rfl⟩ := Value.eq_of_line? first
          rw [Printer.blockLines,
            alone_bind_ok (p.alone_blockLine (bare _ List.mem_cons_self _ rfl)),
            alone_bind_ok (ih others fun v hv => bare v (List.mem_cons_of_mem _ hv))]
          rfl

theorem alone_block {n : Node} {block : List BlockLine} (h : s.Legible n.toValue st)
    (lines : s.Lines (s.part n .bindings) block) :
    (p.block n.toValue).alone s = (.ok block, s) := by
  have bindings : n.toValue.field? s "variables" =
      some (.object (.list (s.part n .bindings))) := by
    cases n <;> rfl
  have node : n.toValue.node? = some n := Object.node?_ofNode n
  rw [Printer.block, alone_bind_ok (h.alone_member bindings)]
  rw [alone_bind_ok (Value.alone_iterate_list (h.lists n node _ (bindings_mem_parts n)))]
  exact alone_blockLines p lines (h.lines n node)

/-! ## Statements -/

theorem alone_sayMember (h : s.Legible v st) {name text : String}
    (hw : v.field? s name = some (.text text)) :
    (p.sayMember v name).alone s = (.ok text, s) := by
  rw [sayMember, alone_bind_ok (h.alone_member hw)]
  rfl

theorem alone_ruleOf {r : RuleId} {name : String} {block : List BlockLine}
    (h : s.Legible (.object (.rule r)) (.rule name block)) :
    (p.ruleOf (.object (.rule r))).alone s = (.ok (.rule name block), s) := by
  obtain ⟨fields, lines⟩ := h.reads
  have named : (Value.object (.rule r)).field? s "name" = some (.text name) :=
    congrArg (fun f : String × Bool => some (Value.text f.1)) fields
  have body : (p.block (.object (.rule r))).alone s = (.ok block, s) :=
    @alone_block s _ p (.rule r) block h lines
  rw [ruleOf, alone_bind_ok (p.alone_sayMember h named), alone_bind_ok body]
  rfl

theorem alone_poolOf {q : PoolId} {name : String} {block : List BlockLine}
    (h : s.Legible (.object (.pool q)) (.pool name block false)) :
    (p.poolOf (.object (.pool q))).alone s = (.ok (.pool name block false), s) := by
  obtain ⟨fields, lines⟩ := h.reads
  have named : (Value.object (.pool q)).field? s "name" = some (.text name) :=
    congrArg (fun f : String × Bool => some (Value.text f.1)) fields
  have visible : (Value.object (.pool q)).field? s "built_in" = some (.bool false) :=
    congrArg (fun f : String × Bool => some (Value.bool f.2)) fields
  have declared : (Value.bool false).truth.alone s = (.ok false, s) := rfl
  have body : (p.block (.object (.pool q))).alone s = (.ok block, s) :=
    @alone_block s _ p (.pool q) block h lines
  rw [poolOf, alone_bind_ok (h.alone_member visible), alone_bind_ok declared,
    if_neg Bool.false_ne_true, alone_bind_ok (p.alone_sayMember h named), alone_bind_ok body]
  rfl

theorem alone_poolOf_builtIn {q : PoolId} {name : String} {block : List BlockLine}
    (h : s.Legible (.object (.pool q)) (.pool name block true)) :
    (p.poolOf (.object (.pool q))).alone s = (.ok (.pool "" [] true), s) := by
  have hidden : (Value.object (.pool q)).field? s "built_in" = some (.bool true) :=
    congrArg (fun f : String × Bool => some (Value.bool f.2)) h.reads.1
  have declared : (Value.bool true).truth.alone s = (.ok true, s) := rfl
  rw [poolOf, alone_bind_ok (h.alone_member hidden), alone_bind_ok declared, if_pos rfl]
  rfl

theorem alone_edgeOf {b : BuildId} {edge : Edge}
    (h : s.Legible (.object (.build b)) (.build edge)) :
    (p.edgeOf (.object (.build b))).alone s = (.ok (.build edge), s) := by
  obtain ⟨fields, paths, lines⟩ := h.reads
  have named : (Value.object (.build b)).field? s "rule_name" = some (.text edge.ruleName) :=
    congrArg (fun f : String × Bool => some (Value.text f.1)) fields
  have member (slot : Slot) : ((Value.object (.build b)).member slot.fieldName).alone s =
      (.ok (.object (.list (s.part (.build b) (.paths slot)))), s) :=
    h.alone_member (by cases slot <;> rfl)
  have part (slot : Slot) : s.Open (s.part (.build b) (.paths slot)) :=
    h.lists _ rfl _ (paths_mem_parts b slot)
  have items (slot : Slot) :
      (Value.object (.list (s.part (.build b) (.paths slot)))).iterate.alone s =
        (.ok ((edge.paths.get slot).map .text), s) := by
    rw [Value.alone_iterate_list (part slot), paths slot]
  have spread (slot : Slot) :
      (Value.object (.list (s.part (.build b) (.paths slot)))).spread.alone s =
        (.ok ((edge.paths.get slot).map .text), s) := by
    rw [Value.alone_spread_list (part slot), paths slot]
  have body : (p.block (.object (.build b))).alone s = (.ok edge.block, s) :=
    @alone_block s _ p (.build b) edge.block h lines
  refine (alone_bind_ok (member .outputs) _).trans ?_
  refine (alone_bind_ok (spread .outputs) _).trans ?_
  refine (alone_bind_ok (member .implicitOutputs) _).trans ?_
  refine (alone_bind_ok (items .implicitOutputs) _).trans ?_
  refine (alone_bind_ok (h.alone_member named) _).trans ?_
  refine (alone_bind_ok (member .inputs) _).trans ?_
  refine (alone_bind_ok (spread .inputs) _).trans ?_
  refine (alone_bind_ok (member .implicitInputs) _).trans ?_
  refine (alone_bind_ok (items .implicitInputs) _).trans ?_
  refine (alone_bind_ok (member .orderOnlyInputs) _).trans ?_
  refine (alone_bind_ok (items .orderOnlyInputs) _).trans ?_
  refine (alone_bind_ok (member .validations) _).trans ?_
  refine (alone_bind_ok (items .validations) _).trans ?_
  have written : alone (Program.ofExcept (Value.paths (.text edge.ruleName)
      (edge.paths.map fun words => words.map .text))) s = (.ok edge.paths, s) := by
    rw [Value.paths_texts]
    rfl
  exact (alone_bind_ok written _).trans (alone_bind_ok body _)

theorem alone_defaultsOf {n : Serial} {outputs : List String}
    (h : s.Legible (.object (.defaults n outputs)) (.defaults outputs)) :
    alone (defaultsOf (.object (.defaults n outputs))) s = (.ok (.defaults outputs), s) := by
  have member : ((Value.object (.defaults n outputs)).member "outputs").alone s =
      (.ok (.tuple (outputs.map .text)), s) := h.alone_member rfl
  have words : alone (Program.ofExcept
      (Value.checkWords (.text "default" :: outputs.map .text))) s = (.ok (), s) := by
    rw [← List.map_cons, Value.checkWords_texts]
    rfl
  refine (alone_bind_ok member _).trans ((alone_bind_ok words _).trans ?_)
  rw [Value.texts_map_text]
  rfl

/-- A statement is read off as what it says. -/
theorem alone_statement (h : s.Legible v st) (visible : st.isHidden = false) :
    (p.statement v).alone s = (.ok st, s) := by
  obtain ⟨o, rfl, -⟩ := h.reads.kind_eq
  refine (alone_bind_ok h.alone_kindOf _).trans ?_
  have reads := h.reads
  cases o with
  | rule r => cases st <;> first | exact p.alone_ruleOf h | exact reads.elim
  | build b => cases st <;> first | exact p.alone_edgeOf h | exact reads.elim
  | pool q =>
      cases st with
      | pool name block builtIn =>
          obtain rfl : builtIn = false := visible
          exact p.alone_poolOf h
      | _ => exact reads.elim
  | comment n text =>
      obtain rfl := reads
      exact alone_bind_ok (p.alone_sayMember h rfl) _
  | binding n b =>
      obtain rfl := reads
      exact alone_bind_ok (p.alone_blockLine (h.bare _ rfl)) _
  | defaults n outputs =>
      obtain rfl := reads
      exact alone_defaultsOf h
  | subninja n path =>
      obtain rfl := reads
      exact alone_bind_ok (p.alone_sayMember h rfl) _
  | inclusion n path =>
      obtain rfl := reads
      exact alone_bind_ok (p.alone_sayMember h rfl) _
  | _ => exact reads.elim

theorem alone_statement_shown (h : s.Legible v st) :
    (p.statement v).alone s = (.ok st.shown, s) := by
  cases hidden : st.isHidden with
  | false => simpa [Statement.shown, hidden] using p.alone_statement h hidden
  | true =>
      obtain ⟨o, rfl, -⟩ := h.reads.kind_eq
      cases st with
      | pool name block builtIn =>
          obtain rfl : builtIn = true := hidden
          refine (alone_bind_ok h.alone_kindOf _).trans ?_
          have reads := h.reads
          cases o with
          | pool q => exact p.alone_poolOf_builtIn h
          | rule | build | comment | binding | defaults | subninja | inclusion => exact nomatch reads
          | _ => exact reads.elim
      | _ => exact nomatch hidden

theorem alone_statements_shown {vs : List Value} {xs : List Statement}
    (h : List.Forall₂ s.Legible vs xs) :
    (p.statements vs).alone s = (.ok (xs.map Statement.shown), s) := by
  induction h with
  | nil => rfl
  | @cons v st vs xs first others ih =>
      have place : ((Value.kind st.kind).member "ordinal").alone s =
          (.ok (.int st.kind.ordinal), s) := alone_storedMember rfl first.kind rfl
      refine (alone_bind_ok first.alone_kindOf _).trans ((alone_bind_ok place _).trans ?_)
      exact (alone_bind_ok (p.alone_statement_shown first) _).trans (alone_bind_ok ih _)

theorem alone_statements {vs : List Value} {xs : List Statement}
    (h : List.Forall₂ s.Legible vs xs) (visible : ∀ st ∈ xs, st.isHidden = false) :
    (p.statements vs).alone s = (.ok xs, s) := by
  have shown : xs.map Statement.shown = xs := by
    conv_rhs => rw [← List.map_id xs]
    exact List.map_congr_left fun st hst => Statement.shown_of_visible (visible st hst)
  rw [p.alone_statements_shown h, shown]

/-! ## Files -/

theorem lines_of_block_nil {st : Statement} (h : st.block = []) (mark other : String) :
    Layout.lines mark st = Layout.lines other st := by
  cases st with
  | rule name block | pool name block builtIn =>
      obtain rfl : block = [] := h
      rfl
  | build edge =>
      have none : edge.block = [] := h
      rw [Layout.lines, Layout.lines, none]
      rfl
  | _ => rfl

theorem file_of_blocks_nil {xs : List Statement} (h : ∀ st ∈ xs, st.block = [])
    (mark other : String) : Layout.file mark xs = Layout.file other xs := by
  have lines (last : Option Kind) :
      Layout.linesFrom mark last xs = Layout.linesFrom other last xs := by
    induction xs generalizing last with
    | nil => rfl
    | cons st rest ih =>
        have others := ih fun st' hst => h st' (List.mem_cons_of_mem st hst)
        rw [Layout.linesFrom, Layout.linesFrom,
          lines_of_block_nil (h st List.mem_cons_self) mark other, others, others]
  rw [Layout.file, Layout.file, lines]

/-- A mark says itself, and where it is not asked for it makes no difference. -/
theorem alone_sayMark (mark : String) (xs : List Statement) :
    ∃ said, (p.sayMark (.text mark) xs).alone s = (.ok said, s) ∧
      (said = mark ∨ ∀ st ∈ xs, st.block = []) := by
  rw [sayMark]
  split
  · next none => exact ⟨"", rfl, .inr (by simpa using none)⟩
  · exact ⟨mark, rfl, .inl rfl⟩

theorem alone_fileText (mark : String) (xs : List Statement) :
    (p.fileText (.text mark) xs).alone s = (.ok (Layout.file mark xs), s) := by
  obtain ⟨said, told, same⟩ := p.alone_sayMark mark xs
  refine (alone_bind_ok told _).trans ?_
  rcases same with rfl | none
  · rfl
  · rw [file_of_blocks_nil none mark said]
    rfl

theorem alone_lines (mark : String) (st : Statement) :
    (p.lines (.text mark) st).alone s = (.ok (Layout.lines mark st), s) := by
  obtain ⟨said, told, same⟩ := p.alone_sayMark mark [st]
  refine (alone_bind_ok told _).trans ?_
  rcases same with rfl | none
  · rfl
  · rw [lines_of_block_nil (none st List.mem_cons_self) mark said]
    rfl

end Printer

end NinjaFile

/-!
## What a formatter makes

A formatter to which nothing has been assigned lays out what the values say, with its own
mark in front of the lines of a block.
-/

namespace NinjaFile

open Action Store

namespace Layout

theorem lines_shown (mark : String) {st : Statement} (h : st.isHidden = false) :
    lines mark st.shown = lines mark st := by
  rw [Statement.shown_of_visible h]

theorem linesFrom_map_shown (mark : String) (last : Option Kind) (xs : List Statement) :
    linesFrom mark last (xs.map Statement.shown) = linesFrom mark last xs := by
  induction xs generalizing last with
  | nil => rfl
  | cons st rest ih =>
      cases hidden : st.isHidden with
      | false => simp [linesFrom, Statement.shown_of_visible hidden, hidden, ih]
      | true => simp [linesFrom, hidden, ih]

end Layout

namespace Script.Formatter

variable {s : Store} {n : Serial} {mark : String}

/-- A formatter with a mark. -/
def marked (n : Serial) (mark : String) : Value := .object (.formatter n mark)

theorem alone_mark (bare : s.Bare (.serial n)) :
    (Formatter.mark (marked n mark)).alone s = (.ok (.text mark), s) :=
  alone_storedMember rfl bare rfl

theorem alone_linesOf (bare : s.Bare (.serial n)) {statement : Action Statement} {st : Statement}
    (h : statement.alone s = (.ok st, s)) :
    (linesOf (marked n mark) statement).alone s =
      (.ok (.list ((Layout.lines mark st).map .text)), s) := by
  unfold linesOf
  rw [alone_bind_ok h, alone_bind_ok (alone_mark bare),
    alone_bind_ok (printer.alone_lines mark st)]
  rfl

/-- The file that statements are laid out in, built-in pools among them. -/
theorem alone_fileText (bare : s.Bare (.serial n)) {vs : List Value}
    {xs : List Statement} (h : List.Forall₂ s.Legible vs xs) :
    (fileText (marked n mark) (.list vs)).alone s = (.ok (.text (Layout.file mark xs)), s) := by
  have read : (statementsOf (.list vs)).alone s = (.ok (xs.map Statement.shown), s) :=
    printer.alone_statements_shown h
  have same : Layout.file mark (xs.map Statement.shown) = Layout.file mark xs := by
    rw [Layout.file, Layout.linesFrom_map_shown, Layout.file]
  unfold fileText
  rw [alone_bind_ok read, alone_bind_ok (alone_mark bare),
    alone_bind_ok (printer.alone_fileText mark _), same]
  rfl

end Script.Formatter

end NinjaFile
