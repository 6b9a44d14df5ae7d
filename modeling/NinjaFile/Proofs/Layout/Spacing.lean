import NinjaFile.Proofs.Layout.Lossless

/-!
# Blank lines

Which lines of a file are blank depends on the kinds of the statements that are written.
Built-in pools are not among these, wherever they stand.
-/

namespace NinjaFile

namespace Layout

/-- The statements that are written. -/
def visible (xs : List Statement) : List Statement := xs.filter fun st => !st.isHidden

/-- The kind of the statement that was written last. -/
def lastKind (xs : List Statement) : Option Kind := (visible xs).getLast?.map Statement.kind

/-- A blank line stands in front of the first statement, of every rule, and of a statement
of another kind than the one before it. -/
def Parted (vs : List Statement) (position : Nat) (st : Statement) : Prop :=
  position = 0 ∨ st.kind = .rule ∨ vs[position - 1]?.map Statement.kind ≠ some st.kind

instance (vs : List Statement) (position : Nat) (st : Statement) :
    Decidable (Parted vs position st) :=
  inferInstanceAs (Decidable (_ ∨ _ ∨ _))

/-- The lines of statements that are all written. -/
def spaced (mark : String) (vs : List Statement) : List String :=
  vs.zipIdx.flatMap fun (st, position) =>
    (if Parted vs position st then [""] else []) ++ lines mark st

variable {mark : String} {st : Statement}

@[simp] theorem visible_append (xs ys : List Statement) :
    visible (xs ++ ys) = visible xs ++ visible ys :=
  List.filter_append ..

@[simp] theorem visible_cons_visible (h : st.isHidden = false) (xs : List Statement) :
    visible (st :: xs) = st :: visible xs := by
  simp [visible, h]

@[simp] theorem visible_cons_hidden (h : st.isHidden = true) (xs : List Statement) :
    visible (st :: xs) = visible xs := by
  simp [visible, h]

/-- Hidden statements are neither written nor remembered. -/
theorem linesFrom_eq_of_visible (last : Option Kind) (xs : List Statement) :
    linesFrom mark last (visible xs) = linesFrom mark last xs := by
  induction xs generalizing last with
  | nil => rfl
  | cons st rest ih =>
      cases hidden : st.isHidden with
      | true => rw [visible_cons_hidden hidden, linesFrom_hidden last hidden, ih]
      | false =>
          rw [visible_cons_visible hidden, linesFrom_visible last hidden,
            linesFrom_visible last hidden, ih]

/-- What was written before matters for the next statement only. -/
theorem linesFrom_append (last : Option Kind) (xs ys : List Statement) :
    linesFrom mark last (xs ++ ys) =
      linesFrom mark last xs ++ linesFrom mark ((lastKind xs).or last) ys := by
  induction xs generalizing last with
  | nil => rfl
  | cons st rest ih =>
      rw [List.cons_append]
      cases hidden : st.isHidden with
      | true =>
          rw [linesFrom_hidden last hidden, linesFrom_hidden last hidden, ih, lastKind, lastKind,
            visible_cons_hidden hidden]
      | false =>
          have kind : (lastKind rest).or (some st.kind) = (lastKind (st :: rest)).or last := by
            rw [lastKind, lastKind, visible_cons_visible hidden, List.getLast?_cons]
            cases (visible rest).getLast? <;> rfl
          rw [linesFrom_visible last hidden, linesFrom_visible last hidden, ih, kind]
          simp only [List.append_assoc]

theorem file_append (xs ys : List Statement) :
    file mark (xs ++ ys) = file mark xs ++ joinLines (linesFrom mark (lastKind xs) ys) := by
  rw [file, linesFrom_append, Option.or_none, joinLines, List.map_append, String.join_append]
  rfl

theorem parted_append (before : List Statement) (st : Statement) (rest : List Statement) :
    Parted (before ++ st :: rest) before.length st ↔
      st.kind = .rule ∨ before.getLast?.map Statement.kind ≠ some st.kind := by
  rcases List.eq_nil_or_concat before with rfl | ⟨front, last, rfl⟩
  · simp [Parted]
  · simp [Parted]

theorem linesFrom_behind (before rest : List Statement)
    (h : ∀ st ∈ rest, st.isHidden = false) :
    linesFrom mark (before.getLast?.map Statement.kind) rest =
      (rest.zipIdx before.length).flatMap fun (st, position) =>
        (if Parted (before ++ rest) position st then [""] else []) ++ lines mark st := by
  induction rest generalizing before with
  | nil => rfl
  | cons st rest ih =>
      obtain ⟨hidden, others⟩ := List.forall_mem_cons.mp h
      have behind := ih (before ++ [st]) others
      simp only [List.getLast?_append, List.append_assoc, List.length_append,
        List.length_singleton, List.singleton_append] at behind
      rw [linesFrom_visible _ hidden, List.zipIdx_cons, List.flatMap_cons, ← behind, separator]
      simp only [parted_append]
      rfl

theorem linesFrom_eq_spaced (xs : List Statement) :
    linesFrom mark none xs = spaced mark (visible xs) := by
  rw [← linesFrom_eq_of_visible]
  exact linesFrom_behind [] (visible xs) (by simp [visible])

end Layout

namespace Script.Formatter

open Layout

variable {s : Store} {n : Serial} {mark : String} {vs : List Value} {xs : List Statement}

theorem alone_format_statement (bare : s.Bare (.serial n)) {v : Value} {st : Statement}
    (h : s.Legible v st) :
    (linesOf (marked n mark) (printer.statement v)).alone s =
      (.ok (.list ((lines mark st).map .text)), s) := by
  rw [alone_linesOf bare (printer.alone_statement_shown h)]
  cases hidden : st.isHidden with
  | false => rw [lines_shown mark hidden]
  | true => rw [lines_of_hidden hidden, lines_of_hidden (by simpa using hidden)]

theorem alone_format_statements (bare : s.Bare (.serial n)) (h : List.Forall₂ s.Legible vs xs)
    (unbroken : ∀ st ∈ xs, st.Unbroken) :
    List.Forall₂ (fun v st => (linesOf (marked n mark) (printer.statement v)).alone s =
      (.ok (.list ((lines mark st).map .text)), s) ∧ "" ∉ lines mark st) vs xs := by
  induction h with
  | nil => exact .nil
  | cons legible _ ih =>
      obtain ⟨first, others⟩ := List.forall_mem_cons.mp unbroken
      exact .cons ⟨alone_format_statement bare legible,
        fun blank => ne_empty_of_mem_lines first blank rfl⟩ (ih others)

/-- The file of statements without newlines, line by line. -/
theorem fileText_layout (bare : s.Bare (.serial n)) (h : List.Forall₂ s.Legible vs xs)
    (hmark : OneLine mark) (unbroken : ∀ st ∈ xs, st.Unbroken) :
    ∃ text, (fileText (marked n mark) (.list vs)).alone s = (.ok (.text text), s) ∧
      Text.lines text = spaced mark (visible xs) ∧
      List.Forall₂ (fun v st => (linesOf (marked n mark) (printer.statement v)).alone s =
        (.ok (.list ((lines mark st).map .text)), s) ∧ "" ∉ lines mark st) vs xs ∧
      (∀ ws ys, List.Forall₂ s.Legible ws ys → visible ys = visible xs →
        (fileText (marked n mark) (.list ws)).alone s = (.ok (.text text), s)) ∧
      ∀ ws ys, List.Forall₂ s.Legible ws ys →
        (fileText (marked n mark) (.list (vs ++ ws))).alone s =
          (.ok (.text (text ++ joinLines (linesFrom mark (lastKind xs) ys))), s) := by
  refine ⟨file mark xs, alone_fileText bare h, ?_, alone_format_statements bare h unbroken,
    ?_, ?_⟩
  · rw [file, lines_joinLines (oneLine_linesFrom none hmark unbroken), linesFrom_eq_spaced]
  · intro ws ys hy same
    rw [alone_fileText bare hy, file, linesFrom_eq_spaced, same, ← linesFrom_eq_spaced]
    rfl
  · intro ws ys hy
    rw [alone_fileText bare (List.rel_append h hy), file_append]

/-- A store with a rule and a built-in pool. -/
def pooled : Store :=
  ((PoolId.make (.text "console") (.int 1) (.ownership .single) (.bool true)).alone sample).2

def pooledValues : List Value :=
  [.object (.pool ⟨0⟩), .object (.rule ⟨0⟩), .object (.pool ⟨0⟩), .object (.rule ⟨0⟩),
    .object (.pool ⟨0⟩)]

def pooledStatements : List Statement :=
  let console := .pool "console" [.binding ⟨"depth", "1"⟩] true
  let rule := .rule "cc" [.binding ⟨"command", "gcc $in"⟩]
  [console, rule, console, rule, console]

theorem legible_pooled : List.Forall₂ pooled.Legible pooledValues pooledStatements := by
  have bare (i : Identity) : pooled.Bare i := fun name => rfl
  have console : pooled.Legible (.object (.pool ⟨0⟩))
      (.pool "console" [.binding ⟨"depth", "1"⟩] true) := by
    refine ⟨⟨rfl, rfl⟩, fun i _ => bare i, bare _, ?_, fun _ _ _ _ i _ => bare i⟩
    rintro _ ⟨⟩ q -
    exact ⟨show 8 < 9 by decide, rfl⟩
  have rule : pooled.Legible (.object (.rule ⟨0⟩))
      (.rule "cc" [.binding ⟨"command", "gcc $in"⟩]) := by
    refine ⟨⟨rfl, rfl⟩, fun i _ => bare i, bare _, ?_, fun _ _ _ _ i _ => bare i⟩
    rintro _ ⟨⟩ q -
    exact ⟨show 0 < 9 by decide, rfl⟩
  exact .cons console (.cons rule (.cons console (.cons rule (.cons console .nil))))

theorem fileText_layout_pooled :
    ∃ text, (fileText (marked 0 "  ") (.list pooledValues)).alone pooled =
        (.ok (.text text), pooled) ∧
      Text.lines text =
        ["", "rule cc", "  command = gcc $in", "", "rule cc", "  command = gcc $in"] := by
  have unbroken : ∀ st ∈ pooledStatements, st.Unbroken := by
    have console : Statement.Unbroken (.pool "console" [.binding ⟨"depth", "1"⟩] true) :=
      ⟨by decide, List.forall_mem_singleton.mpr ⟨_, rfl, by decide, by decide⟩⟩
    have rule : Statement.Unbroken (.rule "cc" [.binding ⟨"command", "gcc $in"⟩]) :=
      ⟨by decide, List.forall_mem_singleton.mpr ⟨_, rfl, by decide, by decide⟩⟩
    simp [pooledStatements, console, rule]
  obtain ⟨text, made, layout, -⟩ := @fileText_layout pooled 0 "  " _ _ (fun name => rfl)
    legible_pooled (by decide) unbroken
  exact ⟨text, made, layout⟩

end Script.Formatter

end NinjaFile
