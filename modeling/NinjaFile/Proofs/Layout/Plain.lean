import NinjaFile.Proofs.Layout.Lines

/-!
# Plain statements

Statements whose names are words, whose texts stay on one line and whose paths are escaped
for where they stand.  The text of a file says which of them are in it.
-/

namespace NinjaFile

open Text

/-! ## Plain statements -/

/-- A character of a name. -/
def isNameChar (c : Char) : Bool := c.isAlphanum || c = '_' || c = '.' || c = '-'

def IsName (name : String) : Prop := name ≠ "" ∧ ∀ c ∈ name.toList, isNameChar c = true

instance (name : String) : Decidable (IsName name) :=
  decidable_of_iff (name ≠ "" ∧ name.toList.all isNameChar = true)
    (and_congr_right' List.all_eq_true)

/-- A path as it is written among others. -/
def Written (k : Escape.Context) (written : String) : Prop :=
  ∃ path, OneLine path ∧ path ∉ ["", "|", "||", "|@"] ∧ written = Escape.escape k path

namespace Layout

/-- The words that other statements than bindings begin with. -/
def keywords : List String := ["build", "rule", "pool", "default", "subninja", "include"]

end Layout

def BlockLine.Plain (line : BlockLine) : Prop :=
  ∃ b, line = .binding b ∧ IsName b.name ∧ OneLine b.value

namespace Statement

/-- What a file can say without loss. -/
def Plain : Statement → Prop
  | .comment text => OneLine text
  | .rule name block => IsName name ∧ ∀ line ∈ block, line.Plain
  | .build edge =>
      IsName edge.ruleName ∧
        (∀ slot, ∀ p ∈ edge.paths.get slot, Written (Manifest.BuildPlan.context slot) p) ∧
          ∀ line ∈ edge.block, line.Plain
  | .binding line => ∃ b, line = .binding b ∧ IsName b.name ∧ OneLine b.value ∧
      b.name ∉ Layout.keywords
  | .defaults outputs => ∀ p ∈ outputs, Written .path p
  | .subninja path => OneLine path
  | .inclusion path => OneLine path
  | .pool name block builtIn => IsName name ∧ (∀ line ∈ block, line.Plain) ∧ builtIn = false

end Statement

theorem IsName.ne_of_mem {name : String} (h : IsName name) {c d : Char} (hc : c ∈ name.toList)
    (hd : isNameChar d = false) : c ≠ d := by
  rintro rfl
  rw [h.2 c hc] at hd
  exact nomatch hd

theorem IsName.not_mem {name : String} (h : IsName name) {c : Char} (hc : isNameChar c = false) :
    c ∉ name.toList := fun hmem => h.ne_of_mem hmem hc rfl

theorem IsName.oneLine {name : String} (h : IsName name) : OneLine name := h.not_mem (by decide)

theorem IsName.sealed {name : String} (h : IsName name) :
    Escape.Sealed (· == ' ') name.toList :=
  .of_forall fun c hc => ⟨h.ne_of_mem hc (by decide), by
    simpa using h.ne_of_mem hc (d := ' ') (by decide)⟩

theorem Written.oneLine {k : Escape.Context} {written : String} (h : Written k written) :
    OneLine written := by
  obtain ⟨path, line, -, rfl⟩ := h
  intro hmem
  rw [Escape.toList_escape] at hmem
  rcases Escape.mem_encode hmem with newline | hmem
  · exact absurd newline (by decide)
  · exact line hmem

theorem Written.listed {k : Escape.Context} {written : String} (h : Written k written) :
    Layout.Listed k written := by
  obtain ⟨path, -, unmarked, rfl⟩ := h
  exact Layout.listed_escape k fun marked => unmarked (List.mem_cons_of_mem _ marked)

/-! ## Plain statements have no line ends -/

theorem BlockLine.Plain.unbroken {line : BlockLine} (h : line.Plain) : line.Unbroken := by
  obtain ⟨b, rfl, name, value⟩ := h
  exact ⟨b, rfl, name.oneLine, value⟩

theorem Statement.Plain.unbroken {st : Statement} (h : st.Plain) : st.Unbroken := by
  cases st with
  | rule name block => exact ⟨h.1.oneLine, fun line hline => (h.2 line hline).unbroken⟩
  | build edge =>
      exact ⟨h.1.oneLine, fun slot p hp => (h.2.1 slot p hp).oneLine,
        fun line hline => (h.2.2 line hline).unbroken⟩
  | binding line =>
      obtain ⟨b, rfl, name, value, -⟩ := h
      exact ⟨b, rfl, name.oneLine, value⟩
  | defaults outputs => exact fun p hp => (h p hp).oneLine
  | pool name block builtIn =>
      exact ⟨h.1.oneLine, fun line hline => (h.2.1 line hline).unbroken⟩
  | _ => exact h

namespace Layout

/-! ## First words -/

/-- What a line has in front of its first space. -/
def firstWord (line : String) : List Char := line.toList.takeWhile (· ≠ ' ')

theorem takeWhile_space {word : List Char} (h : ' ' ∉ word) (rest : List Char) :
    (word ++ ' ' :: rest).takeWhile (· ≠ ' ') = word := by
  rw [List.takeWhile_append_of_pos fun c hc => by simpa using ne_of_mem_of_not_mem hc h]
  simp

theorem firstWord_render {b : Binding} (h : IsName b.name) :
    firstWord b.render = b.name.toList := by
  rw [firstWord, Binding.render, String.toList_append, String.toList_append, List.append_assoc]
  exact takeWhile_space (h.not_mem (by decide)) _

theorem render_inj {b b' : Binding} (h : IsName b.name) (h' : IsName b'.name)
    (same : b.render = b'.render) : b = b' := by
  obtain ⟨name, value⟩ := b
  obtain ⟨name', value'⟩ := b'
  have names : name.toList = name'.toList := by
    rw [← firstWord_render h, ← firstWord_render h', same]
  obtain rfl := String.toList_injective names
  exact congrArg _ ((String.append_right_inj _).mp same)

/-- The kind of statement that begins with a word. -/
def kindOf (word : List Char) : Kind :=
  if word = "#".toList then .comment
  else if word = "rule".toList then .rule
  else if word = "build".toList ∨ word = "build:".toList then .build
  else if word = "default".toList then .defaults
  else if word = "subninja".toList then .subninja
  else if word = "include".toList then .inclusion
  else if word = "pool".toList then .pool
  else .binding

/-! ## First lines -/

theorem firstWord_lead {word : String} (h : ' ' ∉ word.toList) (rest : String) :
    firstWord (word ++ " " ++ rest) = word.toList := by
  rw [firstWord, String.toList_append, String.toList_append, List.append_assoc]
  exact takeWhile_space h _

theorem firstWord_self {word : String} (h : ' ' ∉ word.toList) : firstWord word = word.toList := by
  rw [firstWord, List.takeWhile_eq_self_iff]
  intro c hc
  simpa using ne_of_mem_of_not_mem hc h

theorem kindOf_defaultsLine (outputs : List String) :
    kindOf (firstWord (defaultsLine outputs)) = .defaults := by
  rw [defaultsLine]
  rcases intercalate_cons "default" outputs with heq | ⟨rest, heq⟩
  · rw [heq, firstWord_self (by decide)]
    rfl
  · rw [heq, firstWord_lead (by decide)]
    rfl

theorem kindOf_edgeHeader (ruleName : String) (paths : Slots (List String)) :
    kindOf (firstWord (edgeHeader ruleName paths)) = .build := by
  rw [edgeHeader, List.cons_append]
  rcases intercalate_cons "build" (paths.outputs ++ group "|" paths.implicitOutputs) with
    heq | ⟨rest, heq⟩
  · rw [heq, show "build" ++ ": " = "build:" ++ " " from rfl, firstWord_lead (by decide)]
    rfl
  · rw [heq, String.append_assoc, String.append_assoc, firstWord_lead (by decide)]
    rfl

theorem kindOf_name {name : String} (h : IsName name) (free : name ∉ keywords) :
    kindOf name.toList = .binding := by
  have other (word : String) (hword : word ∈ keywords) : name.toList ≠ word.toList :=
    fun heq => free (String.toList_injective heq ▸ hword)
  have unlike {c : Char} (hc : isNameChar c = false) (word : String) (hword : c ∈ word.toList) :
      name.toList ≠ word.toList :=
    fun heq => h.not_mem hc (heq ▸ hword)
  simp only [kindOf, other "build" (by decide), other "rule" (by decide),
    other "pool" (by decide), other "default" (by decide), other "subninja" (by decide),
    other "include" (by decide), @unlike '#' (by decide) "#" (by decide),
    @unlike ':' (by decide) "build:" (by decide), or_self, if_false]

theorem kindOf_head {st : Statement} (h : st.Plain) : kindOf (firstWord (head st)) = st.kind := by
  cases st with
  | comment text => exact congrArg kindOf (@firstWord_lead "#" (by decide) text)
  | rule name block => exact congrArg kindOf (@firstWord_lead "rule" (by decide) name)
  | build edge => exact kindOf_edgeHeader edge.ruleName edge.paths
  | binding line =>
      obtain ⟨b, rfl, name, -, free⟩ := h
      exact (congrArg kindOf (firstWord_render name)).trans (kindOf_name name free)
  | defaults outputs => exact kindOf_defaultsLine outputs
  | subninja path => exact congrArg kindOf (@firstWord_lead "subninja" (by decide) path)
  | inclusion path => exact congrArg kindOf (@firstWord_lead "include" (by decide) path)
  | pool name block builtIn => exact congrArg kindOf (@firstWord_lead "pool" (by decide) name)

theorem words_defaultsLine {outputs : List String} (h : ∀ p ∈ outputs, Written .path p) :
    words (defaultsLine outputs).toList = "default" :: outputs := by
  refine words_intercalate (List.cons_ne_nil _ _) ?_
  rw [List.forall_mem_cons]
  refine ⟨.of_forall (by simp), fun p hp => (h p hp).listed.sealed.mono fun c ends => ?_⟩
  rw [beq_iff_eq.mp ends]
  rfl

theorem eq_of_head {x y : Statement} (hx : x.Plain) (hy : y.Plain) (heads : head x = head y)
    (blocks : x.block = y.block) : x = y := by
  have kinds : x.kind = y.kind := by rw [← kindOf_head hx, ← kindOf_head hy, heads]
  cases x <;> cases y <;> simp only [Statement.kind, reduceCtorEq] at kinds
  case comment.comment => rw [(String.append_right_inj _).mp heads]
  case rule.rule =>
    obtain rfl := blocks
    rw [(String.append_right_inj _).mp heads]
    rfl
  case build.build edge edge' =>
    have read : readEdge (head (.build edge)) = readEdge (head (.build edge')) := by rw [heads]
    rw [head, head, readEdge_edgeHeader hx.1.sealed fun slot p hp => (hx.2.1 slot p hp).listed,
      readEdge_edgeHeader hy.1.sealed fun slot p hp => (hy.2.1 slot p hp).listed] at read
    obtain ⟨name, paths⟩ := Prod.mk.inj read
    cases edge
    cases edge'
    exact congrArg _ (by simp_all [Statement.block])
  case binding.binding =>
    obtain ⟨b, rfl, name, -⟩ := hx
    obtain ⟨b', rfl, name', -⟩ := hy
    rw [render_inj name name' heads]
  case defaults.defaults =>
    have read := congrArg (fun line => words line.toList) heads
    simp only [head, words_defaultsLine hx, words_defaultsLine hy, List.cons.injEq] at read
    rw [read.2]
  case subninja.subninja => rw [(String.append_right_inj _).mp heads]
  case inclusion.inclusion => rw [(String.append_right_inj _).mp heads]
  case pool.pool =>
    obtain ⟨-, -, rfl⟩ := hx
    obtain ⟨-, -, rfl⟩ := hy
    obtain rfl := blocks
    rw [(String.append_right_inj _).mp heads]
    rfl

/-! ## Lines of statements -/

theorem plain_block {st : Statement} (h : st.Plain) : ∀ line ∈ st.block, line.Plain := by
  cases st with
  | rule name block => exact h.2
  | build edge => exact h.2.2
  | pool name block builtIn => exact h.2.1
  | _ => exact fun line hline => absurd hline List.not_mem_nil

theorem visible_of_plain {st : Statement} (h : st.Plain) : st.isHidden = false := by
  cases st with
  | pool name block builtIn => exact h.2.2
  | _ => rfl

theorem firstWord_head_ne_nil {st : Statement} (h : st.Plain) : firstWord (head st) ≠ [] := by
  intro none
  have kind := kindOf_head h
  rw [none] at kind
  cases st with
  | binding line =>
      obtain ⟨b, rfl, name, -⟩ := h
      rw [head, BlockLine.render, firstWord_render name] at none
      exact name.1 (String.toList_injective none)
  | _ => cases kind

theorem firstWord_blockLines {block : List BlockLine} {l : String}
    (h : l ∈ blockLines defaultIndent block) : firstWord l = [] := by
  rw [blockLines, indentLines, List.mem_map] at h
  obtain ⟨line, -, rfl⟩ := h
  rw [firstWord, String.toList_append]
  rfl

theorem blockLines_inj {block block' : List BlockLine} (h : ∀ line ∈ block, line.Plain)
    (h' : ∀ line ∈ block', line.Plain)
    (same : blockLines defaultIndent block = blockLines defaultIndent block') :
    block = block' := by
  induction block generalizing block' with
  | nil =>
      cases block' with
      | nil => rfl
      | cons line rest => exact nomatch same
  | cons line rest ih =>
      cases block' with
      | nil => exact nomatch same
      | cons line' rest' =>
          obtain ⟨first, others⟩ := List.cons.inj same
          obtain ⟨b, rfl, name, -⟩ := h line List.mem_cons_self
          obtain ⟨b', rfl, name', -⟩ := h' line' List.mem_cons_self
          rw [render_inj name name' ((String.append_right_inj _).mp first),
            ih (fun l hl => h l (List.mem_cons_of_mem _ hl))
              (fun l hl => h' l (List.mem_cons_of_mem _ hl)) others]

/-! ## Files -/

variable {xs ys : List Statement}

theorem filter_linesFrom (h : ∀ st ∈ xs, st.Plain) (last : Option Kind) :
    (linesFrom defaultIndent last xs).filter (· ≠ "") = xs.flatMap (lines defaultIndent) := by
  induction xs generalizing last with
  | nil => rfl
  | cons st rest ih =>
      have plain := h st List.mem_cons_self
      have blank : (separator last st.kind).filter (· ≠ "") = [] := by
        rw [separator]
        split <;> simp
      have kept : (lines defaultIndent st).filter (· ≠ "") = lines defaultIndent st :=
        List.filter_eq_self.mpr fun l hl => by simpa using ne_empty_of_mem_lines plain.unbroken hl
      rw [linesFrom_visible last (visible_of_plain plain), List.filter_append, List.filter_append, blank, kept,
        ih fun st' hst => h st' (List.mem_cons_of_mem st hst)]
      rfl

/-- A line that does not begin at the margin belongs to the statement before. -/
def isIndented (line : String) : Bool := firstWord line = []

theorem isIndented_blockLines {block : List BlockLine} :
    ∀ l ∈ blockLines defaultIndent block, isIndented l = true :=
  fun _ hl => decide_eq_true (firstWord_blockLines hl)

theorem isIndented_head? (h : ∀ st ∈ xs, st.Plain) :
    ∀ l ∈ (xs.flatMap (lines defaultIndent)).head?, isIndented l = false := by
  cases xs with
  | nil => exact fun l hl => nomatch hl
  | cons st rest =>
      have plain := h st List.mem_cons_self
      rw [List.flatMap_cons, lines_eq (visible_of_plain plain)]
      intro l hl
      cases hl
      exact decide_eq_false (firstWord_head_ne_nil plain)

theorem takeWhile_isIndented {block rest : List String} (h : ∀ l ∈ block, isIndented l = true)
    (ends : ∀ l ∈ rest.head?, isIndented l = false) :
    (block ++ rest).takeWhile isIndented = block ∧
      (block ++ rest).dropWhile isIndented = rest := by
  rw [List.takeWhile_append_of_pos h, List.dropWhile_append_of_pos h]
  cases rest with
  | nil => simp
  | cons l rest => simp [ends l rfl]

/-- The lines of statements tell where one ends and the next begins. -/
theorem eq_of_flatMap_lines (hx : ∀ st ∈ xs, st.Plain) (hy : ∀ st ∈ ys, st.Plain)
    (same : xs.flatMap (lines defaultIndent) = ys.flatMap (lines defaultIndent)) : xs = ys := by
  induction xs generalizing ys with
  | nil =>
      cases ys with
      | nil => rfl
      | cons y ys =>
          rw [List.flatMap_cons, lines_eq (visible_of_plain (hy y List.mem_cons_self))] at same
          exact nomatch same
  | cons x xs ih =>
      have plain := hx x List.mem_cons_self
      cases ys with
      | nil =>
          rw [List.flatMap_cons, lines_eq (visible_of_plain plain)] at same
          exact nomatch same
      | cons y ys =>
          have plain' := hy y List.mem_cons_self
          have others : ∀ st ∈ xs, st.Plain := fun st hst => hx st (List.mem_cons_of_mem x hst)
          have others' : ∀ st ∈ ys, st.Plain := fun st hst => hy st (List.mem_cons_of_mem y hst)
          rw [List.flatMap_cons, List.flatMap_cons, lines_eq (visible_of_plain plain),
            lines_eq (visible_of_plain plain'), List.cons_append, List.cons_append] at same
          obtain ⟨heads, behind⟩ := List.cons.inj same
          have parted := takeWhile_isIndented (@isIndented_blockLines x.block)
            (isIndented_head? others)
          have parted' := takeWhile_isIndented (@isIndented_blockLines y.block)
            (isIndented_head? others')
          rw [behind] at parted
          have blocks : x.block = y.block :=
            blockLines_inj (plain_block plain) (plain_block plain')
              (parted.1.symm.trans parted'.1)
          rw [eq_of_head plain plain' heads blocks,
            ih others others' (parted.2.symm.trans parted'.2)]

theorem eq_of_file (hx : ∀ st ∈ xs, st.Plain) (hy : ∀ st ∈ ys, st.Plain)
    (same : file defaultIndent xs = file defaultIndent ys) : xs = ys := by
  refine eq_of_flatMap_lines hx hy ?_
  have line {zs : List Statement} (hz : ∀ st ∈ zs, st.Plain) :
      Text.lines (file defaultIndent zs) = linesFrom defaultIndent none zs :=
    lines_joinLines (oneLine_linesFrom none (by decide) fun st hst => (hz st hst).unbroken)
  rw [← filter_linesFrom hx none, ← filter_linesFrom hy none, ← line hx, ← line hy]
  exact congrArg (fun text => (Text.lines text).filter (· ≠ "")) same

end Layout

end NinjaFile
