import NinjaFile.Proofs.Layout.Edge
import NinjaFile.Text.Lines

/-!
# Lines of a file

Statements in which no line ends.  Each of their lines is one line of the file, and none
of these lines is blank.
-/

namespace NinjaFile

open Text

def OneLine (text : String) : Prop := '\n' ∉ text.toList

instance (text : String) : Decidable (OneLine text) := inferInstanceAs (Decidable (_ ∉ _))

theorem OneLine.append {a b : String} (ha : OneLine a) (hb : OneLine b) : OneLine (a ++ b) := by
  rw [OneLine, String.toList_append, List.mem_append]
  exact fun h => h.elim ha hb

/-- A binding without a newline. -/
def BlockLine.Unbroken (line : BlockLine) : Prop :=
  ∃ b, line = .binding b ∧ OneLine b.name ∧ OneLine b.value

namespace Statement

/-- No newline is in a name, a text, a value or a path. -/
def Unbroken : Statement → Prop
  | .comment text => OneLine text
  | .rule name block => OneLine name ∧ ∀ line ∈ block, line.Unbroken
  | .build edge =>
      OneLine edge.ruleName ∧ (∀ slot, ∀ p ∈ edge.paths.get slot, OneLine p) ∧
        ∀ line ∈ edge.block, line.Unbroken
  | .binding line => line.Unbroken
  | .defaults outputs => ∀ p ∈ outputs, OneLine p
  | .subninja path => OneLine path
  | .inclusion path => OneLine path
  | .pool name block _ => OneLine name ∧ ∀ line ∈ block, line.Unbroken

theorem Unbroken.block {st : Statement} (h : st.Unbroken) : ∀ line ∈ st.block, line.Unbroken := by
  cases st with
  | rule name block => exact h.2
  | build edge => exact h.2.2
  | pool name block builtIn => exact h.2
  | _ => exact fun line hline => absurd hline List.not_mem_nil

end Statement

/-! ## Lines -/

namespace Text

theorem splitLines_append {line : List Char} (h : '\n' ∉ line) (current rest : List Char) :
    splitLines current (line ++ '\n' :: rest) =
      (current.reverse ++ line) :: splitLines [] rest := by
  induction line generalizing current with
  | nil => simp [splitLines]
  | cons c line ih =>
      obtain ⟨hc, hline⟩ := List.ne_and_not_mem_of_not_mem_cons h
      rw [List.cons_append, splitLines, if_neg hc.symm, ih hline]
      simp

end Text

namespace Layout

/-- The lines of a file are found again in its text. -/
theorem lines_joinLines {ls : List String} (h : ∀ l ∈ ls, OneLine l) :
    Text.lines (joinLines ls) = ls := by
  have split : splitLines [] (joinLines ls).toList = ls.map String.toList := by
    induction ls with
    | nil => rfl
    | cons l rest ih =>
        have first : (joinLines (l :: rest)).toList =
            l.toList ++ '\n' :: (joinLines rest).toList := by
          simp [joinLines, String.toList_join]
        rw [first, splitLines_append (h l List.mem_cons_self),
          ih fun m hm => h m (List.mem_cons_of_mem l hm)]
        rfl
  rw [Text.lines, split]
  simp [Function.comp_def]

/-! ## First lines -/

/-- The first line of a statement. -/
def head : Statement → String
  | .comment text => commentLine text
  | .rule name _ => ruleHeader name
  | .build edge => edgeHeader edge.ruleName edge.paths
  | .binding line => line.render
  | .defaults outputs => defaultsLine outputs
  | .subninja path => subninjaLine path
  | .inclusion path => inclusionLine path
  | .pool name _ _ => poolHeader name

theorem lines_eq {st : Statement} (h : st.isHidden = false) (mark : String) :
    lines mark st = head st :: blockLines mark st.block := by
  cases st with
  | pool name block builtIn =>
      obtain rfl : builtIn = false := h
      rfl
  | _ => rfl

theorem lines_of_hidden {st : Statement} (h : st.isHidden = true) (mark : String) :
    lines mark st = [] := by
  cases st with
  | pool name block builtIn =>
      obtain rfl : builtIn = true := h
      rfl
  | _ => exact nomatch h

theorem intercalate_cons (word : String) (ws : List String) :
    " ".intercalate (word :: ws) = word ∨
      ∃ rest, " ".intercalate (word :: ws) = word ++ " " ++ rest := by
  cases ws with
  | nil => exact .inl (String.toList_injective (by simp))
  | cons w ws =>
      exact .inr ⟨" ".intercalate (w :: ws), String.intercalate_cons_of_ne_nil (by simp)⟩

/-! ## No line ends inside -/

theorem oneLine_intercalate {ws : List String} (h : ∀ w ∈ ws, OneLine w) :
    OneLine (" ".intercalate ws) := by
  induction ws with
  | nil => decide
  | cons w ws ih =>
      have first := h w List.mem_cons_self
      cases ws with
      | nil => simpa using first
      | cons w' ws =>
          rw [String.intercalate_cons_of_ne_nil (by simp)]
          exact (first.append (by decide)).append (ih fun v hv => h v (List.mem_cons_of_mem w hv))

theorem oneLine_group {marker : String} (hmarker : OneLine marker) {paths : List String}
    (h : ∀ p ∈ paths, OneLine p) : ∀ w ∈ group marker paths, OneLine w := by
  rw [group]
  split
  · exact fun w hw => absurd hw List.not_mem_nil
  · exact List.forall_mem_cons.mpr ⟨hmarker, h⟩

theorem oneLine_edgeHeader {ruleName : String} (hname : OneLine ruleName)
    {paths : Slots (List String)} (h : ∀ slot, ∀ p ∈ paths.get slot, OneLine p) :
    OneLine (edgeHeader ruleName paths) := by
  have before : ∀ w ∈ outputWords paths, OneLine w := by
    simp only [outputWords, List.cons_append, List.forall_mem_cons, List.forall_mem_append]
    exact ⟨by decide, h .outputs, oneLine_group (by decide) (h .implicitOutputs)⟩
  have behind : ∀ w ∈ inputWords ruleName paths, OneLine w := by
    simp only [inputWords, List.cons_append, List.forall_mem_cons, List.forall_mem_append]
    exact ⟨hname, ⟨⟨h .inputs, oneLine_group (by decide) (h .implicitInputs)⟩,
      oneLine_group (by decide) (h .orderOnlyInputs)⟩,
      oneLine_group (by decide) (h .validations)⟩
  exact ((oneLine_intercalate before).append (by decide)).append (oneLine_intercalate behind)

theorem oneLine_render {line : BlockLine} (h : line.Unbroken) : OneLine line.render := by
  obtain ⟨b, rfl, name, value⟩ := h
  exact (name.append (by decide)).append value

theorem oneLine_head {st : Statement} (h : st.Unbroken) : OneLine (head st) := by
  cases st with
  | comment text => exact OneLine.append (by decide) h
  | rule name block => exact OneLine.append (by decide) h.1
  | build edge => exact oneLine_edgeHeader h.1 h.2.1
  | binding line => exact oneLine_render h
  | defaults outputs =>
      exact oneLine_intercalate (List.forall_mem_cons.mpr ⟨by decide, h⟩)
  | subninja path => exact OneLine.append (by decide) h
  | inclusion path => exact OneLine.append (by decide) h
  | pool name block builtIn => exact OneLine.append (by decide) h.1

variable {mark : String}

theorem oneLine_blockLines (hmark : OneLine mark) {block : List BlockLine}
    (h : ∀ line ∈ block, line.Unbroken) : ∀ l ∈ blockLines mark block, OneLine l := by
  intro l hl
  rw [blockLines, indentLines, List.map_map, List.mem_map] at hl
  obtain ⟨line, hline, rfl⟩ := hl
  exact hmark.append (oneLine_render (h line hline))

theorem oneLine_lines (hmark : OneLine mark) {st : Statement} (h : st.Unbroken) :
    ∀ l ∈ lines mark st, OneLine l := by
  cases hidden : st.isHidden with
  | false =>
      rw [lines_eq hidden, List.forall_mem_cons]
      exact ⟨oneLine_head h, oneLine_blockLines hmark h.block⟩
  | true => simp [lines_of_hidden hidden]

theorem oneLine_separator (last : Option Kind) (next : Kind) :
    ∀ l ∈ separator last next, OneLine l := by
  intro l hl
  rw [separator] at hl
  split at hl
  · rw [List.mem_singleton.mp hl]
    decide
  · exact absurd hl List.not_mem_nil

/-! ## No line is blank -/

theorem ne_empty_render {line : BlockLine} (h : line.Unbroken) : line.render ≠ "" := by
  obtain ⟨b, rfl, -⟩ := h
  simp [Binding.render]

theorem ne_empty_head {st : Statement} (h : st.Unbroken) : head st ≠ "" := by
  cases st with
  | binding line => exact ne_empty_render h
  | defaults outputs =>
      rw [head, defaultsLine]
      rcases intercalate_cons "default" outputs with heq | ⟨rest, heq⟩ <;> simp [heq]
  | build edge => simp [head, edgeHeader]
  | _ => simp [head, commentLine, ruleHeader, subninjaLine, inclusionLine, poolHeader]

theorem ne_empty_of_mem_lines {st : Statement} (h : st.Unbroken) {l : String}
    (hl : l ∈ lines mark st) : l ≠ "" := by
  cases hidden : st.isHidden with
  | false =>
      rw [lines_eq hidden, List.mem_cons] at hl
      rcases hl with rfl | hl
      · exact ne_empty_head h
      · rw [blockLines, indentLines, List.map_map, List.mem_map] at hl
        obtain ⟨line, hline, rfl⟩ := hl
        simp [ne_empty_render (h.block line hline)]
  | true => simp [lines_of_hidden hidden] at hl

/-! ## Files -/

variable {xs : List Statement} {st : Statement} (last : Option Kind)

theorem linesFrom_hidden (h : st.isHidden = true) :
    linesFrom mark last (st :: xs) = linesFrom mark last xs := by
  rw [linesFrom, if_pos h]

theorem linesFrom_visible (h : st.isHidden = false) :
    linesFrom mark last (st :: xs) =
      separator last st.kind ++ lines mark st ++ linesFrom mark (some st.kind) xs := by
  rw [linesFrom, if_neg (by simp [h])]

theorem oneLine_linesFrom (hmark : OneLine mark) (h : ∀ st ∈ xs, st.Unbroken) :
    ∀ l ∈ linesFrom mark last xs, OneLine l := by
  induction xs generalizing last with
  | nil => exact fun l hl => absurd hl List.not_mem_nil
  | cons st rest ih =>
      obtain ⟨first, others⟩ := List.forall_mem_cons.mp h
      cases hidden : st.isHidden with
      | true =>
          rw [linesFrom_hidden last hidden]
          exact ih last others
      | false =>
          rw [linesFrom_visible last hidden, List.forall_mem_append, List.forall_mem_append]
          exact ⟨⟨oneLine_separator last _, oneLine_lines hmark first⟩, ih _ others⟩

end Layout

end NinjaFile
