import NinjaFile.Layout
import NinjaFile.Proofs.Manifest.Expansion
import NinjaFile.Proofs.Text.Reading

/-!
# Reading the line of a build

The line of a build is read back: its first colon that is not escaped ends the outputs,
spaces that are not escaped part the words, and markers part the groups of paths.
-/

namespace NinjaFile.Layout

open Text Text.Escape Manifest.BuildPlan

/-! ## Groups -/

/-- The words that stand in front of a group of paths. -/
def markers : List String := ["|", "||", "|@"]

/-- The words in front of the next marker, and those from there on. -/
def takePaths (words : List String) : List String × List String :=
  (words.takeWhile fun w => w ∉ markers, words.dropWhile fun w => w ∉ markers)

/-- The paths behind a marker and the words behind them; where there is no such marker
there are no paths. -/
def takeGroup (marker : String) : List String → List String × List String
  | [] => ([], [])
  | w :: rest => if w = marker then takePaths rest else ([], w :: rest)

/-- No paths come next. -/
def Stops (words : List String) : Prop := ∀ w ∈ words.head?, w ∈ markers

theorem stops_nil : Stops [] := fun _ h => nomatch h

theorem stops_group {marker : String} (h : marker ∈ markers) (paths : List String)
    {rest : List String} (stops : Stops rest) : Stops (group marker paths ++ rest) := by
  rw [group]
  split
  · exact stops
  · intro w hw
    cases hw
    exact h

theorem head?_group {marker other : String} (hne : marker ≠ other) (paths : List String)
    {rest : List String} (h : rest.head? ≠ some other) :
    (group marker paths ++ rest).head? ≠ some other := by
  rw [group]
  split
  · exact h
  · simpa using hne

theorem takePaths_append {paths rest : List String} (unmarked : ∀ p ∈ paths, p ∉ markers)
    (stops : Stops rest) : takePaths (paths ++ rest) = (paths, rest) := by
  have goesOn : ∀ p ∈ paths, decide (p ∉ markers) = true := by simpa using unmarked
  rw [takePaths, List.takeWhile_append_of_pos goesOn, List.dropWhile_append_of_pos goesOn]
  cases rest with
  | nil => simp
  | cons w rest =>
      have := stops w rfl
      simp [this]

theorem takeGroup_append {marker : String} {paths rest : List String}
    (unmarked : ∀ p ∈ paths, p ∉ markers) (stops : Stops rest)
    (other : rest.head? ≠ some marker) :
    takeGroup marker (group marker paths ++ rest) = (paths, rest) := by
  rw [group]
  split
  · next none =>
      subst none
      cases rest with
      | nil => rfl
      | cons w rest =>
          rw [List.nil_append, takeGroup, if_neg fun heq => other (by rw [heq]; rfl)]
  · rw [List.cons_append, takeGroup, if_pos rfl, takePaths_append unmarked stops]

/-! ## Words -/

/-- The words of a text. -/
def words (text : List Char) : List String := (pieces (· == ' ') text).map String.ofList

theorem words_intercalate {ws : List String} (some : ws ≠ [])
    (h : ∀ w ∈ ws, Sealed (· == ' ') w.toList) : words (" ".intercalate ws).toList = ws := by
  have parted := @pieces_intercalate (· == ' ') ' ' rfl (by decide) (ws.map String.toList)
    (by simpa using some) (by simpa using h)
  rw [words, String.toList_intercalate, show " ".toList = [' '] from rfl, parted]
  simp [Function.comp_def]

/-- A path that can stand among the words of a line. -/
structure Listed (k : Context) (path : String) : Prop where
  sealed : Sealed (isSpecial k) path.toList
  unmarked : path ∉ markers

theorem listed_escape (k : Context) {path : String} (h : path ∉ markers) :
    Listed k (escape k path) where
  sealed := by
    rw [toList_escape]
    exact .encode (fun _ => id) _
  unmarked := by
    intro marked
    have plain : ∀ m ∈ markers, '$' ∉ m.toList := by decide
    have same : path.toList = (escape k path).toList :=
      eq_of_encode (toList_escape k path).symm (plain _ marked)
    exact h (String.toList_injective same ▸ marked)

theorem sealed_markers {stop : Char → Bool} (h : stop '|' = false ∧ stop '@' = false) :
    ∀ m ∈ markers, Sealed stop m.toList := by
  intro m hm
  have chars : ∀ m ∈ markers, ∀ c ∈ m.toList, c = '|' ∨ c = '@' := by simp [markers]
  refine .of_forall fun c hc => ?_
  rcases chars m hm c hc with rfl | rfl
  · exact ⟨by decide, h.1⟩
  · exact ⟨by decide, h.2⟩

theorem sealed_group {stop : Char → Bool} (h : stop '|' = false ∧ stop '@' = false)
    {marker : String} (hmarker : marker ∈ markers) {paths : List String}
    (hpaths : ∀ p ∈ paths, Sealed stop p.toList) :
    ∀ w ∈ group marker paths, Sealed stop w.toList := by
  intro w hw
  rw [group] at hw
  split at hw
  · exact absurd hw List.not_mem_nil
  · rcases List.mem_cons.mp hw with rfl | hw
    · exact sealed_markers h _ hmarker
    · exact hpaths w hw

/-! ## The line -/

/-- The name of the rule and the paths of a `build` line. -/
def readEdge (line : String) : String × Slots (List String) :=
  let before := words (cut (· == ':') line.toList).1
  let behind := words ((cut (· == ':') line.toList).2.drop 2)
  let (outputs, rest) := takePaths before.tail
  let (implicitOutputs, _) := takeGroup "|" rest
  let (inputs, rest) := takePaths behind.tail
  let (implicitInputs, rest) := takeGroup "|" rest
  let (orderOnlyInputs, rest) := takeGroup "||" rest
  let (validations, _) := takeGroup "|@" rest
  (behind.headD "",
    ⟨outputs, implicitOutputs, inputs, implicitInputs, orderOnlyInputs, validations⟩)

section

variable {ruleName : String} {paths : Slots (List String)}

/-- The words in front of the colon. -/
def outputWords (paths : Slots (List String)) : List String :=
  "build" :: paths.outputs ++ group "|" paths.implicitOutputs

/-- The words behind the colon. -/
def inputWords (ruleName : String) (paths : Slots (List String)) : List String :=
  ruleName :: paths.inputs ++ group "|" paths.implicitInputs ++
    group "||" paths.orderOnlyInputs ++ group "|@" paths.validations

theorem sealed_outputWords {stop : Char → Bool}
    (special : ∀ c, stop c = true → isSpecial .output c = true)
    (h : ∀ slot, ∀ p ∈ paths.get slot, Listed (context slot) p) :
    ∀ w ∈ outputWords paths, Sealed stop w.toList := by
  have literal {c : Char} (hc : isSpecial .output c = false) : stop c = false := by
    by_contra ends
    rw [special c (by simpa using ends)] at hc
    exact nomatch hc
  have listed {slot : Slot} (hslot : context slot = .output) :
      ∀ p ∈ paths.get slot, Sealed stop p.toList := by
    intro p hp
    refine (h slot p hp).sealed.mono ?_
    rw [hslot]
    exact special
  rw [outputWords, List.cons_append, List.forall_mem_cons, List.forall_mem_append]
  refine ⟨.of_forall fun c hc => ?_, @listed .outputs rfl,
    sealed_group ⟨literal (by decide), literal (by decide)⟩ (by decide)
      (@listed .implicitOutputs rfl)⟩
  have letters : ∀ c ∈ "build".toList, c ≠ '$' ∧ isSpecial .output c = false := by
    simp [isSpecial]
  exact ⟨(letters c hc).1, literal (letters c hc).2⟩

theorem sealed_inputWords {stop : Char → Bool}
    (special : ∀ c, stop c = true → isSpecial .path c = true)
    (hname : Sealed stop ruleName.toList)
    (h : ∀ slot, ∀ p ∈ paths.get slot, Listed (context slot) p) :
    ∀ w ∈ inputWords ruleName paths, Sealed stop w.toList := by
  have literal {c : Char} (hc : isSpecial .path c = false) : stop c = false := by
    by_contra ends
    rw [special c (by simpa using ends)] at hc
    exact nomatch hc
  have listed (slot : Slot) (hslot : context slot = .path) :
      ∀ p ∈ paths.get slot, Sealed stop p.toList := by
    intro p hp
    refine (h slot p hp).sealed.mono ?_
    rw [hslot]
    exact special
  have apart : stop '|' = false ∧ stop '@' = false := ⟨literal (by decide), literal (by decide)⟩
  simp only [inputWords, List.cons_append, List.forall_mem_cons, List.forall_mem_append]
  exact ⟨hname, ⟨⟨listed .inputs rfl, sealed_group apart (by decide) (listed .implicitInputs rfl)⟩,
    sealed_group apart (by decide) (listed .orderOnlyInputs rfl)⟩,
    sealed_group apart (by decide) (listed .validations rfl)⟩

theorem sealed_intercalate {stop : Char → Bool} (space : stop ' ' = false) {ws : List String}
    (h : ∀ w ∈ ws, Sealed stop w.toList) : Sealed stop (" ".intercalate ws).toList := by
  rw [String.toList_intercalate]
  refine .intercalate (.of_forall (by simp [space])) ?_
  rwa [List.forall_mem_map]

/-- The first colon that is not escaped stands right behind the outputs. -/
theorem cut_edgeHeader (h : ∀ slot, ∀ p ∈ paths.get slot, Listed (context slot) p) :
    cut (· == ':') (edgeHeader ruleName paths).toList =
      ((" ".intercalate (outputWords paths)).toList,
        ':' :: ' ' :: (" ".intercalate (inputWords ruleName paths)).toList) := by
  have before : Sealed (· == ':') (" ".intercalate (outputWords paths)).toList :=
    sealed_intercalate rfl (sealed_outputWords (by simp [isSpecial, Context.output]) h)
  rw [edgeHeader, String.toList_append, String.toList_append, List.append_assoc]
  exact before.cut_stop rfl (by decide) _

theorem words_outputs (h : ∀ slot, ∀ p ∈ paths.get slot, Listed (context slot) p) :
    words (" ".intercalate (outputWords paths)).toList = outputWords paths :=
  words_intercalate (List.cons_ne_nil _ _)
    (sealed_outputWords (by simp [isSpecial, Context.output]) h)

theorem words_inputs (hname : Sealed (· == ' ') ruleName.toList)
    (h : ∀ slot, ∀ p ∈ paths.get slot, Listed (context slot) p) :
    words (" ".intercalate (inputWords ruleName paths)).toList = inputWords ruleName paths :=
  words_intercalate (by simp [inputWords])
    (sealed_inputWords (by simp [isSpecial, Context.path]) hname h)

theorem readEdge_edgeHeader (hname : Sealed (· == ' ') ruleName.toList)
    (h : ∀ slot, ∀ p ∈ paths.get slot, Listed (context slot) p) :
    readEdge (edgeHeader ruleName paths) = (ruleName, paths) := by
  have unmarked (slot : Slot) : ∀ p ∈ paths.get slot, p ∉ markers :=
    fun p hp => (h slot p hp).unmarked
  have last (marker : String) (hm : marker ∈ markers) (ps : List String) :
      Stops (group marker ps) := by
    simpa using stops_group hm ps stops_nil
  have outputs : takePaths (outputWords paths).tail =
      (paths.outputs, group "|" paths.implicitOutputs) :=
    takePaths_append (unmarked .outputs) (last _ (by decide) _)
  have implicitOutputs : takeGroup "|" (group "|" paths.implicitOutputs) =
      (paths.implicitOutputs, []) := by
    have taken := @takeGroup_append "|" _ _ (unmarked .implicitOutputs) stops_nil nofun
    rwa [List.append_nil] at taken
  -- The groups behind the colon come one after the other, each ended by the next marker.
  have stops : Stops (group "||" paths.orderOnlyInputs ++ group "|@" paths.validations) :=
    stops_group (by decide) _ (last _ (by decide) _)
  have inputs : takePaths (inputWords ruleName paths).tail =
      (paths.inputs, group "|" paths.implicitInputs ++
        (group "||" paths.orderOnlyInputs ++ group "|@" paths.validations)) := by
    rw [inputWords, List.append_assoc, List.append_assoc]
    exact takePaths_append (unmarked .inputs) (stops_group (by decide) _ stops)
  have validations : takeGroup "|@" (group "|@" paths.validations) = (paths.validations, []) := by
    have taken := @takeGroup_append "|@" _ _ (unmarked .validations) stops_nil nofun
    rwa [List.append_nil] at taken
  have none {other : String} (hne : "|@" ≠ other) :
      (group "|@" paths.validations).head? ≠ some other := by
    simpa using @head?_group _ other hne paths.validations [] nofun
  have orderOnlyInputs : takeGroup "||" (group "||" paths.orderOnlyInputs ++
      group "|@" paths.validations) = (paths.orderOnlyInputs, group "|@" paths.validations) :=
    takeGroup_append (unmarked .orderOnlyInputs) (last _ (by decide) _) (none (by decide))
  have implicitInputs : takeGroup "|" (group "|" paths.implicitInputs ++
      (group "||" paths.orderOnlyInputs ++ group "|@" paths.validations)) =
        (paths.implicitInputs,
          group "||" paths.orderOnlyInputs ++ group "|@" paths.validations) :=
    takeGroup_append (unmarked .implicitInputs) stops (head?_group (by decide) _
      (none (by decide)))
  simp only [readEdge, cut_edgeHeader h, List.drop_succ_cons, List.drop_zero, words_outputs h,
    words_inputs hname h, outputs, implicitOutputs, inputs, implicitInputs, orderOnlyInputs, validations]
  rfl

end

end NinjaFile.Layout
