import Mathlib.Data.List.Forall2
import NinjaFile.Iteration
import NinjaFile.Proofs.Program.Alone
import NinjaFile.Proofs.Text.Utf8

/-!
# Texts from values

However bytes are held, they give the text that they are the encoding of.  A row of values gives
its texts in order, and is not looked at behind the first value that has none.
-/

namespace NinjaFile

open Program

namespace Value

/-! ## Single values -/

/-- The ways of holding bytes that count as a text. -/
inductive Carries (bytes : List UInt8) : Value → Prop where
  | fixed : Carries bytes (.bytes .fixed bytes)
  | growable : Carries bytes (.bytes .growable bytes)
  | path : Carries bytes (.pathBytes bytes)

/-- The ways of holding a text. -/
inductive Tells (text : String) : Value → Prop where
  | plain : Tells text (.text text)
  | path : Tells text (.path text)
  | pathText : Tells text (.pathText text)

theorem Tells.toArgument {text : String} {v : Value} (h : v.Tells text) : v.toArgument = .ok text := by
  cases h <;> rfl

theorem Tells.isArgument {text : String} {v : Value} (h : v.Tells text) : v.isArgument = true := by
  cases h <;> rfl

section

variable {bytes : List UInt8} {v : Value} (h : v.Carries bytes)

include h

theorem Carries.toArgument : v.toArgument = decodeBytes bytes := by
  cases h <;> rfl

theorem Carries.isArgument : v.isArgument = true := by
  cases h <;> rfl

theorem Carries.toArgument_eq_ok_iff (text : String) :
    v.toArgument = .ok text ↔ bytes.toByteArray = text.toByteArray := by
  rw [h.toArgument, ← Text.Utf8.decode_eq_ok_iff]
  unfold decodeBytes
  split <;> simp_all

theorem Carries.undecodable (invalid : ∀ text : String, bytes.toByteArray ≠ text.toByteArray) :
    ∃ fault, v.toArgument = .error (.undecodable fault) ∧
      IsGreatest {n | n ≤ bytes.length ∧ (bytes.take n).toByteArray.IsValidUTF8} fault.position := by
  rw [h.toArgument, decodeBytes]
  cases read : Text.Utf8.decode bytes with
  | ok text => exact absurd (Text.Utf8.decode_eq_ok_iff.mp read) (invalid text)
  | error fault => exact ⟨fault, rfl, Text.Utf8.isGreatest_of_decode_error read⟩

end

/-! ## Rows of values -/

/-- Each value has its text. -/
def Convert (items : List Value) (texts : List String) : Prop :=
  List.Forall₂ (fun v text => v.toArgument = .ok text) items texts

/-- A value has no text, all in front of it have theirs, and `rest` stands behind it. -/
def Stop (items : List Value) (fault : Fault) (rest : List Value) : Prop :=
  ∃ front texts v, items = front ++ v :: rest ∧ Convert front texts ∧ v.toArgument = .error fault

theorem takeArguments_eq_none_iff {items : List Value} {texts : List String} :
    takeArguments items = (texts, none) ↔ Convert items texts := by
  unfold Convert
  induction items generalizing texts with
  | nil => simp [takeArguments, eq_comm]
  | cons v items ih =>
      cases first : v.toArgument with
      | error fault => cases texts <;> simp [takeArguments, first]
      | ok text =>
          cases taken : takeArguments items with
          | mk front stop => cases texts <;> cases stop <;> simp_all [takeArguments, ← ih]

theorem stop_cons_iff {v : Value} {items rest : List Value} {text : String} {fault : Fault}
    (first : v.toArgument = .ok text) : Stop (v :: items) fault rest ↔ Stop items fault rest := by
  constructor
  · rintro ⟨front, texts, w, split, converted, bad⟩
    cases front with
    | nil =>
        obtain ⟨rfl, -⟩ := List.cons.inj split
        cases first.symm.trans bad
    | cons u front =>
        obtain ⟨-, rfl⟩ := List.cons.inj split
        cases converted with
        | cons _ converted => exact ⟨front, _, w, rfl, converted, bad⟩
  · rintro ⟨front, texts, w, rfl, converted, bad⟩
    exact ⟨v :: front, text :: texts, w, rfl, .cons first converted, bad⟩

theorem takeArguments_eq_some_iff {items rest : List Value} {fault : Fault} :
    (takeArguments items).2 = some (fault, rest) ↔ Stop items fault rest := by
  induction items with
  | nil => simp [takeArguments, Stop]
  | cons v items ih =>
      cases first : v.toArgument with
      | ok text => rw [stop_cons_iff first, ← ih, takeArguments, first]
      | error bad =>
          simp only [takeArguments, first, Option.some.injEq, Prod.mk.injEq]
          constructor
          · rintro ⟨rfl, rfl⟩
            exact ⟨[], [], v, rfl, .nil, first⟩
          · rintro ⟨front, texts, w, split, converted, fails⟩
            cases converted with
            | nil =>
                obtain ⟨rfl, rfl⟩ := List.cons.inj split
                exact ⟨Except.error.inj (first.symm.trans fails), rfl⟩
            | cons converted _ =>
                obtain ⟨rfl, -⟩ := List.cons.inj split
                cases first.symm.trans converted

theorem toArguments_eq (items : List Value) :
    toArguments items =
      match takeArguments items with
      | (texts, none) => .ok texts
      | (_, some (fault, _)) => .error fault := by
  induction items with
  | nil => rfl
  | cons v items ih =>
      unfold toArguments takeArguments
      cases v.toArgument with
      | error fault => rfl
      | ok text =>
          rw [ih]
          cases takeArguments items with
          | mk texts stop => cases stop <;> rfl

end Value

/-! ## Sources -/

/-- What a source raises behind its last item. -/
def Source.ending (source : Source) : Option String :=
  if source.state = .finished then none else source.raises

section

variable {τ : Type} (t : ThreadId) (serve : SourceId → Store × τ → Store × τ)

theorem Store.source_keep (s : Store) (id : SourceId) (rest : List Value) :
    let kept := (s.modifySource id fun src => { src with items := rest }).source id
    kept.state = (s.source id).state ∧ kept.raises = (s.source id).raises := by
  simp only [Store.source, Store.modifySource, Table.get, Table.get?_modify, if_pos]
  cases s.sources.get? id.index <;> simp

theorem SourceId.run_close (id : SourceId) (m : Store × τ) :
    ∃ m', id.close.run t serve m =
      match (m.1.source id).ending with
      | none => (.done (), m')
      | some text => (.failed (.raised text), m') := by
  unfold SourceId.close Source.ending
  simp only [bind_eq, Action.read, act_bind, pure_bind, run]
  split
  · exact ⟨m, rfl⟩
  · cases (m.1.source id).raises <;> exact ⟨_, rfl⟩

/-- The items that are left where a run of values has been gone through in part; only a source
takes notice. -/
def Value.leave (v : Value) (rest : List Value) (m : Store × τ) : Store × τ :=
  match v.items with
  | .source id => (m.1.modifySource id fun src => { src with items := rest }, m.2)
  | _ => m

/-- A value can be gone through: the items it gives, what it raises behind the last of them, and
the state of things in front of the first. -/
inductive Value.Offers (m : Store × τ) :
    Value → List Value → Option String → Store × τ → Prop where
  | plain {v : Value} {items : List Value} (row : v.items = .plain items) : Offers m v items none m
  | list {v : Value} {id : ListId} {items : List Value} {m' : Store × τ} (row : v.items = .list id)
      (seen : id.snapshot.run t serve m = (.done items, m')) : Offers m v items none m'
  | source {v : Value} {id : SourceId} (row : v.items = .source id)
      (idle : (m.1.source id).state ≠ .closing) :
      Offers m v (m.1.source id).items (m.1.source id).ending m

namespace Value

variable {v : Value} {m m₁ : Store × τ} {items rest : List Value} {ending : Option String}
  {texts : List String} {fault : Fault}

theorem run_arguments_single (single : v.isArgument = true) :
    v.arguments.run t serve m =
      match v.toArgument with
      | .ok word => (.done [word], m)
      | .error fault => (.failed fault, m) := by
  unfold arguments
  split
  · cases single
  · rw [if_pos single]
    cases v.toArgument <;> rfl

theorem run_takeArguments {id : SourceId} (idle : (m.1.source id).state ≠ .closing) :
    id.takeArguments.run t serve m =
      match Value.takeArguments (m.1.source id).items with
      | (texts, none) =>
          (.done (.ok texts), (m.1.modifySource id fun src => { src with items := [] }, m.2))
      | (_, some (fault, rest)) =>
          (.done (.error fault), (m.1.modifySource id fun src => { src with items := rest }, m.2)) := by
  unfold SourceId.takeArguments update
  simp only [run]
  cases state : (m.1.source id).state with
  | closing => exact absurd state idle
  | ready | finished =>
      rcases Value.takeArguments (m.1.source id).items with ⟨texts, _ | ⟨fault, rest⟩⟩ <;> rfl

theorem arguments_of_items (row : v.isArgument = false) (gives : v.items ≠ .none) :
    v.arguments =
      match v.items with
      | .plain items => ofExcept (toArguments items)
      | .list id => do
          let items ← id.snapshot
          ofExcept (toArguments items)
      | .source id => id.arguments
      | .none => .fail (.notIterable v.typeName) := by
  unfold arguments
  split
  · exact absurd rfl gives
  · exact if_neg (by simp [row])

theorem run_arguments_of_convert (h : Offers t serve m v items ending m₁) (row : v.isArgument = false)
    (converted : Convert items texts) :
    ∃ m', v.arguments.run t serve m =
      match ending with
      | none => (.done texts, m')
      | some raised => (.failed (.raised raised), m') := by
  have taken := takeArguments_eq_none_iff.mpr converted
  have gives : toArguments items = .ok texts := by rw [toArguments_eq, taken]
  cases h with
  | plain h =>
      refine ⟨m, ?_⟩
      rw [arguments_of_items row (by simp [h]), h]
      simp only [gives]
      rfl
  | list h seen =>
      refine ⟨m₁, ?_⟩
      rw [arguments_of_items row (by simp [h]), h]
      simp only [bind_eq, run_bind, seen, gives]
      rfl
  | @source id h idle =>
      rw [arguments_of_items row (by simp [h]), h]
      have took := run_takeArguments t serve idle
      rw [taken] at took
      obtain ⟨m', closed⟩ := SourceId.run_close t serve id
        (m.1.modifySource id fun src => { src with items := [] }, m.2)
      have same : ((m.1.modifySource id fun src => { src with items := [] }).source id).ending =
          (m.1.source id).ending := by
        obtain ⟨state, raises⟩ := Store.source_keep m.1 id []
        simp [Source.ending, state, raises]
      refine ⟨m', ?_⟩
      simp only [SourceId.arguments, bind_eq, run_bind, took, Program.ofExcept, run, closed, same]
      cases (m.1.source id).ending <;> rfl

theorem run_arguments_of_stop (h : Offers t serve m v items ending m₁) (row : v.isArgument = false)
    (stopped : Stop items fault rest) :
    v.arguments.run t serve m = (.failed fault, v.leave rest m₁) := by
  have taken := takeArguments_eq_some_iff.mpr stopped
  have fails : toArguments items = .error fault := by
    rw [toArguments_eq]
    cases takes : takeArguments items
    simp_all
  cases h with
  | plain h =>
      rw [arguments_of_items row (by simp [h]), h]
      simp only [fails, leave, h]
      rfl
  | list h seen =>
      rw [arguments_of_items row (by simp [h]), h]
      simp only [bind_eq, run_bind, seen, fails, leave, h]
      rfl
  | source h idle =>
      rw [arguments_of_items row (by simp [h]), h]
      have took := run_takeArguments t serve idle
      cases takes : takeArguments (m.1.source _).items with
      | mk texts stop =>
          obtain rfl : stop = some (fault, rest) := by rw [← taken, takes]
          rw [takes] at took
          simp only [SourceId.arguments, bind_eq, run_bind, took, Program.ofExcept, fail_bind, run, leave, h]

theorem convert_or_stop (items : List Value) :
    (∃ texts, Convert items texts) ∨ ∃ fault rest, Stop items fault rest := by
  cases taken : takeArguments items with
  | mk texts stop =>
      cases stop with
      | none => exact .inl ⟨texts, takeArguments_eq_none_iff.mp taken⟩
      | some stop => exact .inr ⟨stop.1, stop.2, takeArguments_eq_some_iff.mp (by rw [taken])⟩

/-- Values come in as texts by what they hold.  Bytes, however they are carried, are the text that
they are the encoding of, and at fault behind their longest valid beginning if there is none; a row
of values is converted in order, all of it or up to the first item that has no text, and nothing
behind that one is taken. -/
theorem arguments_by_content (m : Store × τ) :
    (∀ (bytes : List UInt8) (v : Value), v.Carries bytes →
      (∀ text, v.toArgument = .ok text ↔ bytes.toByteArray = text.toByteArray) ∧
      (∀ (text : String) (w : Value), v.toArgument = .ok text → w.Tells text →
        w.toArgument = .ok text) ∧
      ((∀ text : String, bytes.toByteArray ≠ text.toByteArray) →
        ∃ fault, v.toArgument = .error (.undecodable fault) ∧
          IsGreatest {n | n ≤ bytes.length ∧ (bytes.take n).toByteArray.IsValidUTF8}
            fault.position)) ∧
    (∀ v : Value, ((∃ bytes, v.Carries bytes) ∨ ∃ text, v.Tells text) →
      (∀ text, v.toArgument = .ok text → v.arguments.run t serve m = (.done [text], m)) ∧
      (∀ fault, v.toArgument = .error fault → v.arguments.run t serve m = (.failed fault, m))) ∧
    (∀ (v : Value) items ending m₁, v.isArgument = false → Offers t serve m v items ending m₁ →
      (∀ texts, (∃ m', v.arguments.run t serve m = (.done texts, m')) ↔
        Convert items texts ∧ ending = none) ∧
      (∀ texts raised, Convert items texts → ending = some raised →
        ∃ m', v.arguments.run t serve m = (.failed (.raised raised), m')) ∧
      ((¬∃ texts, Convert items texts) → ∃ fault rest, Stop items fault rest ∧
        v.arguments.run t serve m = (.failed fault, v.leave rest m₁))) := by
  refine ⟨fun bytes v carries => ⟨carries.toArgument_eq_ok_iff, fun text w _ tells => tells.toArgument,
    carries.undecodable⟩, fun v held => ?_, fun v items ending m₁ row offers => ?_⟩
  · have single : v.isArgument = true := by
      obtain ⟨bytes, carries⟩ | ⟨text, tells⟩ := held
      · exact carries.isArgument
      · exact tells.isArgument
    have ran := run_arguments_single t serve (m := m) single
    constructor
    · intro text converted
      rw [ran, converted]
    · intro fault failed
      rw [ran, failed]
  · refine ⟨fun texts => ⟨?_, ?_⟩, ?_, fun none => ?_⟩
    · rintro ⟨m', returned⟩
      obtain ⟨all, converted⟩ | ⟨fault, rest, stopped⟩ := convert_or_stop items
      · obtain ⟨m'', ran⟩ := run_arguments_of_convert t serve offers row converted
        rw [returned] at ran
        cases ending with
        | none =>
            cases ran
            exact ⟨converted, rfl⟩
        | some raised => cases ran
      · rw [run_arguments_of_stop t serve offers row stopped] at returned
        cases returned
    · rintro ⟨converted, rfl⟩
      exact run_arguments_of_convert t serve offers row converted
    · rintro texts raised converted rfl
      exact run_arguments_of_convert t serve offers row converted
    · obtain converted | ⟨fault, rest, stopped⟩ := convert_or_stop items
      · exact absurd converted none
      · exact ⟨fault, rest, stopped, run_arguments_of_stop t serve offers row stopped⟩

/-- A source is left with what stands behind bytes that are cut short. -/
theorem arguments_by_content_source :
    let cut : Value := .bytes .growable [0x62, 0xC3]
    let items := [.text "a", cut, .text "c"]
    let s := ((Store.ofFiles ⟨[], []⟩).insertSource ⟨items, .ready, none⟩).2
    (∃ fault, cut.toArgument = .error (.undecodable fault) ∧
      IsGreatest {n | n ≤ 2 ∧ ([0x62, 0xC3].take n).toByteArray.IsValidUTF8} fault.position) ∧
    ∃ fault rest, Stop items fault rest ∧
      (Value.source ⟨0⟩).arguments.run 0 (fun _ m => m) (s, ()) =
        (.failed fault, (Value.source ⟨0⟩).leave rest (s, ())) := by
  intro cut items s
  obtain ⟨carriers, -, rows⟩ := arguments_by_content 0 (fun _ m => m) (s, ())
  obtain ⟨read, -, unread⟩ := carriers _ cut .growable
  have fails : cut.toArgument = .error (.undecodable ⟨1, 1, 0xC3, .unexpectedEnd⟩) := by decide +kernel
  have invalid (text : String) : [0x62, 0xC3].toByteArray ≠ text.toByteArray := fun valid => by
    cases fails.symm.trans ((read text).mpr valid)
  have source : s.source ⟨0⟩ = ⟨items, .ready, none⟩ := rfl
  have offers : Offers 0 (fun _ m => m) (s, ()) (.source ⟨0⟩) (s.source ⟨0⟩).items
      (s.source ⟨0⟩).ending (s, ()) := .source rfl (by simp [source])
  rw [source] at offers
  obtain ⟨-, -, stops⟩ := rows _ _ _ _ rfl offers
  refine ⟨unread invalid, stops ?_⟩
  rintro ⟨texts, converted⟩
  cases converted with
  | cons _ converted =>
      cases converted with
      | cons converts _ => cases fails.symm.trans converts

end Value

end

end NinjaFile
