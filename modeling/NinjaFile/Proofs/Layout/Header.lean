import NinjaFile.Proofs.Layout.Lossless
import NinjaFile.Proofs.Text.Reading

/-!
# The texts behind the line of a build

Whatever texts the paths of a build stand for, once they are escaped for their place its
line says them all: nothing in a text ends a path, the outputs or the line.
-/

namespace NinjaFile

open Text.Escape Manifest.BuildPlan

namespace Layout

/-- Texts that are escaped for where they stand. -/
def escapedPaths (texts : Slots (List String)) : Slots (List String) :=
  .ofFn fun slot => (texts.get slot).map (escape (context slot))

/-- The rule name that a line says, and the texts that its paths stand for. -/
def readTexts (line : String) : String × Slots (List String) :=
  ((readEdge line).1, (readEdge line).2.map fun words => words.map unescape)

/-- A rule name that is read as one word. -/
structure IsWord (name : String) : Prop where
  nonempty : name ≠ ""
  literal : ∀ c ∈ name.toList, isSpecial .path c = false

theorem IsWord.sealed {name : String} (h : IsWord name) : Sealed (isSpecial .path) name.toList :=
  .of_forall fun c hc => ⟨ne_dollar (h.literal c hc), h.literal c hc⟩

variable {ruleName : String} {texts : Slots (List String)}

theorem listed_escapedPaths (allowed : ∀ slot, ∀ t ∈ texts.get slot, t ∉ "" :: markers) :
    ∀ slot, ∀ p ∈ (escapedPaths texts).get slot, Listed (context slot) p := by
  intro slot p hp
  simp only [escapedPaths, Slots.get_ofFn, List.mem_map] at hp
  obtain ⟨t, ht, rfl⟩ := hp
  exact listed_escape _ fun marked => allowed slot t ht (List.mem_cons_of_mem _ marked)

theorem unescape_escapedPaths (texts : Slots (List String)) :
    ((escapedPaths texts).map fun words => words.map unescape) = texts := by
  apply Slots.ext_get
  intro slot
  simp [escapedPaths, Function.comp_def, unescape_escape]

theorem sealed_edgeHeader (hname : IsWord ruleName)
    (allowed : ∀ slot, ∀ t ∈ texts.get slot, t ∉ "" :: markers) :
    Sealed (· == '\n') (edgeHeader ruleName (escapedPaths texts)).toList := by
  have listed := listed_escapedPaths allowed
  have name : Sealed (· == '\n') ruleName.toList := hname.sealed.mono (by simp [isSpecial])
  have outputs : ∀ w ∈ outputWords (escapedPaths texts), Sealed (· == '\n') w.toList :=
    sealed_outputWords (by simp [isSpecial]) listed
  have inputs : ∀ w ∈ inputWords ruleName (escapedPaths texts), Sealed (· == '\n') w.toList :=
    sealed_inputWords (by simp [isSpecial]) name listed
  rw [edgeHeader, String.toList_append, String.toList_append]
  have between : Sealed (· == '\n') ": ".toList := .of_forall (by simp)
  exact ((sealed_intercalate rfl outputs).append between).append (sealed_intercalate rfl inputs)

theorem not_mem_group {marker : String} (hmarker : marker ≠ "") {paths : List String}
    (h : "" ∉ paths) : "" ∉ group marker paths := by
  unfold group
  split
  · simp
  · simp [h, hmarker.symm]

theorem not_mem_escapedPaths (allowed : ∀ slot, ∀ t ∈ texts.get slot, t ∉ "" :: markers)
    (slot : Slot) : "" ∉ (escapedPaths texts).get slot := by
  simp only [escapedPaths, Slots.get_ofFn, List.mem_map]
  rintro ⟨t, ht, none⟩
  have empty : t = "" := by
    rw [← unescape_escape (context slot) t, none]
    rfl
  apply allowed slot t ht
  simp [empty]

theorem not_mem_outputWords (allowed : ∀ slot, ∀ t ∈ texts.get slot, t ∉ "" :: markers) :
    "" ∉ outputWords (escapedPaths texts) := by
  have paths := not_mem_escapedPaths allowed
  simp only [outputWords, List.cons_append, List.mem_cons, List.mem_append, not_or]
  exact ⟨by decide, paths .outputs, not_mem_group (by decide) (paths .implicitOutputs)⟩

theorem not_mem_inputWords (hname : IsWord ruleName)
    (allowed : ∀ slot, ∀ t ∈ texts.get slot, t ∉ "" :: markers) :
    "" ∉ inputWords ruleName (escapedPaths texts) := by
  have paths := not_mem_escapedPaths allowed
  simp only [inputWords, List.cons_append, List.mem_cons, List.mem_append, not_or]
  exact ⟨hname.nonempty.symm, ⟨⟨paths .inputs,
    not_mem_group (by decide) (paths .implicitInputs)⟩,
    not_mem_group (by decide) (paths .orderOnlyInputs)⟩,
    not_mem_group (by decide) (paths .validations)⟩

/-- Reading the line and dropping the escapes gives the texts. -/
theorem readTexts_edgeHeader (hname : IsWord ruleName)
    (allowed : ∀ slot, ∀ t ∈ texts.get slot, t ∉ "" :: markers) :
    readTexts (edgeHeader ruleName (escapedPaths texts)) = (ruleName, texts) := by
  have name : Sealed (· == ' ') ruleName.toList :=
    hname.sealed.mono (by simp [isSpecial, Context.path])
  rw [readTexts, readEdge_edgeHeader name (listed_escapedPaths allowed), unescape_escapedPaths]

end Layout

namespace Script.Formatter

open Layout

variable {s : Store} {n : Serial} {mark : String} {b : BuildId} {edge : Edge}
  {texts : Slots (List String)}

/-- The line that is made of a build whose paths are escaped is read back: it goes on to its
end, its first colon that is not escaped stands right behind the outputs, no word on either
side of the colon is empty, and what the words stand for is the rule name and the texts. -/
theorem linesOf_edge_read (bare : s.Bare (.serial n))
    (legible : s.Legible (.object (.build b)) (.build edge)) (hname : IsWord edge.ruleName)
    (escaped : edge.paths = escapedPaths texts)
    (allowed : ∀ slot, ∀ t ∈ texts.get slot, t ∉ "" :: markers) :
    ∃ header block,
      (linesOf (marked n mark) (printer.edgeOf (.object (.build b)))).alone s =
          (.ok (.list ((header :: block).map .text)), s) ∧
        Sealed (· == '\n') header.toList ∧
        cut (· == ':') header.toList =
          ((" ".intercalate (outputWords (escapedPaths texts))).toList,
            ':' :: ' ' ::
              (" ".intercalate (inputWords edge.ruleName (escapedPaths texts))).toList) ∧
        "" ∉ words (cut (· == ':') header.toList).1 ∧
        "" ∉ words ((cut (· == ':') header.toList).2.drop 2) ∧
        readTexts header = (edge.ruleName, texts) := by
  have listed := listed_escapedPaths allowed
  have name : Sealed (· == ' ') edge.ruleName.toList :=
    hname.sealed.mono (by simp [isSpecial, Context.path])
  have lines : (linesOf (marked n mark) (printer.edgeOf (.object (.build b)))).alone s = _ :=
    alone_linesOf bare (printer.alone_edgeOf legible)
  rw [Layout.lines, escaped] at lines
  refine ⟨_, _, lines, sealed_edgeHeader hname allowed, cut_edgeHeader listed, ?_, ?_,
    readTexts_edgeHeader hname allowed⟩
  · rw [cut_edgeHeader listed, words_outputs listed]
    exact not_mem_outputWords allowed
  · rw [cut_edgeHeader listed, List.drop_succ_cons, List.drop_succ_cons, List.drop_zero,
      words_inputs name listed]
    exact not_mem_inputWords hname allowed

theorem linesOf_edge_read_sample :
    IsWord "cc" ∧ readTexts "build a$:$ b: cc" = ("cc", ⟨["a: b"], [], [], [], [], []⟩) := by
  have hname : IsWord "cc" := ⟨by simp, by simp [isSpecial]⟩
  obtain - | ⟨-, - | ⟨-, - | ⟨legible, -⟩⟩⟩ := legible_sample 0
  have allowed : ∀ slot, ∀ t ∈ (Slots.mk ["a: b"] [] [] [] [] []).get slot,
      t ∉ "" :: markers := by
    intro slot
    cases slot <;> decide
  obtain ⟨header, block, made, -, -, -, -, read⟩ :=
    @linesOf_edge_read sample 0 "" _ _ _ (fun name => rfl) legible hname rfl allowed
  have written : (linesOf (marked 0 "") (printer.edgeOf (.object (.build ⟨0⟩)))).alone sample = _ :=
    alone_linesOf (fun name => rfl) (printer.alone_edgeOf legible)
  rw [written] at made
  have same : [Value.text "build a$:$ b: cc"] = (header :: block).map .text :=
    Value.list.inj (Except.ok.inj (congrArg Prod.fst made))
  obtain ⟨first, -⟩ := List.cons.inj same
  rw [← Value.text.inj first] at read
  exact ⟨hname, read⟩

end Script.Formatter

end NinjaFile
