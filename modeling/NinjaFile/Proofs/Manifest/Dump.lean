import Mathlib.Data.List.TakeDrop
import NinjaFile.Manifest.Validation
import NinjaFile.Proofs.Json.Reading

/-!
# Manifests written out in full

A manifest can be written as JSON with every field spelled out.  Whatever text has that value is
read as the manifest again: a check looks at the values of keys and never at their order, and what
it makes of a value is something that it takes as it is.
-/

namespace NinjaFile

namespace Manifest

open Json (SameEntries)

variable {α β γ : Type}

/-! ## Checks look at values -/

/-- A check that finds the same in values that are the same. -/
def Steady (check : Json → Checked α) : Prop := ∀ ⦃v w⦄, v.Same w → check v = check w

/-- The same for checks of fields. -/
def SteadyFields (fields : Entries → Checked α) : Prop :=
  ∀ ⦃entries entries'⦄, SameEntries entries entries' → fields entries = fields entries'

theorem steady_text : Steady checkText := fun _ _ h => by cases h <;> rfl

theorem steady_optional : Steady checkOptional := fun _ _ h => by cases h <;> rfl

theorem steady_bool : Steady checkBool := fun _ _ h => by cases h <;> rfl

theorem steady_int : Steady checkInt := fun _ _ h => by cases h <;> rfl

theorem steady_depth : Steady checkDepth := fun v w h => by
  rw [checkDepth, checkDepth, steady_int h]

theorem listFrom_same {check : Json → Checked α} (steady : Steady check) {items items' : List Json}
    (each : List.Forall₂ Json.Same items items') (i : Nat) :
    Checked.listFrom check i items = Checked.listFrom check i items' := by
  induction each generalizing i with
  | nil => rfl
  | cons same _ ih => rw [Checked.listFrom, Checked.listFrom, steady same, ih]

theorem steady_list {check : Json → Checked α} (steady : Steady check) : Steady (checkList check) := by
  intro v w h
  cases h with
  | list each => exact listFrom_same steady each 0
  | _ => rfl

theorem steady_model {fields : Entries → Checked α} (steady : SteadyFields fields) :
    Steady (model fields) := by
  intro v w h
  cases h with
  | object each => exact steady each
  | _ => rfl

theorem steady_required (name : String) {check : Json → Checked α} (steady : Steady check) :
    SteadyFields fun entries => required entries name check := by
  intro entries entries' h
  simp only [required]
  obtain ⟨found, found'⟩ | ⟨v, w, found, found', same⟩ := h.found name
  · rw [found, found']
  · simp only [found, found', steady same]

theorem steady_optionalField (name : String) (fallback : α) {check : Json → Checked α}
    (steady : Steady check) : SteadyFields fun entries => optionalField entries name fallback check := by
  intro entries entries' h
  simp only [optionalField]
  obtain ⟨found, found'⟩ | ⟨v, w, found, found', same⟩ := h.found name
  · rw [found, found']
  · simp only [found, found', steady same]

theorem SteadyFields.both {f : α → β → γ} {a : Entries → Checked α} {b : Entries → Checked β}
    (ha : SteadyFields a) (hb : SteadyFields b) :
    SteadyFields fun entries => Checked.both f (a entries) (b entries) := fun _ _ h => by
  simp only [ha h, hb h]

theorem SteadyFields.app {f : Entries → Checked (α → β)} {a : Entries → Checked α}
    (hf : SteadyFields f) (ha : SteadyFields a) :
    SteadyFields fun entries => Checked.app (f entries) (a entries) := hf.both ha

theorem SteadyFields.map {a : Entries → Checked α} (ha : SteadyFields a) (f : α → β) :
    SteadyFields fun entries => (a entries).map f := fun _ _ h => by
  simp only [ha h]

theorem steady_binding : SteadyFields bindingFields :=
  .both (steady_required "name" steady_text) (steady_required "value" steady_text)

theorem steady_bindings : SteadyFields bindingsField :=
  steady_optionalField "variables" [] (steady_list (steady_model steady_binding))

theorem steady_paths (name : String) : SteadyFields fun entries => pathsField entries name :=
  steady_optionalField name [] (steady_list steady_text)

theorem steady_plan : SteadyFields planFields :=
  .app (.app (.app (.app (.app (.app (.both (steady_required "outputs" (steady_list steady_text))
    (steady_paths "inputs")) (steady_paths "implicit_inputs")) (steady_paths "order_only_inputs"))
    (steady_paths "validations")) (steady_paths "implicit_outputs"))
    (steady_optionalField "dyndep" none steady_optional)) steady_bindings

theorem steady_rule : SteadyFields ruleFields :=
  .app (.app (.app (.both (steady_required "name" steady_text) (steady_required "command" steady_text))
    (steady_optionalField "pool" none steady_optional)) steady_bindings)
    (steady_optionalField "builds" [] (steady_list (steady_model steady_plan)))

theorem steady_pool : SteadyFields poolFields :=
  .app (.both (steady_required "name" steady_text) (steady_required "depth" steady_depth))
    steady_bindings

theorem steady_declarationFields (tag : Tag) :
    SteadyFields fun entries => declarationFields entries tag := by
  cases tag with
  | rule => exact steady_rule
  | build => exact steady_plan.both (steady_required "rule" steady_text)
  | phony => exact steady_plan.map _
  | pool => exact steady_pool
  | binding => exact steady_binding.map _
  | comment => exact (steady_required "text" steady_text).map _
  | defaults => exact (steady_required "outputs" (steady_list steady_text)).map _
  | subninja => exact (steady_required "path" steady_text).map _
  | inclusion => exact (steady_required "path" steady_text).map _

theorem tagOf?_same {v w : Json} (h : v.Same w) : tagOf? v = tagOf? w := by cases h <;> rfl

theorem steady_declaration : Steady checkDeclaration := by
  intro v w h
  cases h with
  | object each =>
      rw [checkDeclaration, checkDeclaration]
      obtain ⟨found, found'⟩ | ⟨kind, kind', found, found', same⟩ := SameEntries.found each "kind"
      · rw [found, found']
      · simp only [found, found', tagOf?_same same]
        cases tagOf? kind' with
        | none => rfl
        | some tag => simp only [steady_declarationFields tag each]
  | _ => rfl

/-- Values that are the same stand for the same manifest, or the same is wrong with them. -/
theorem steady_validate : Steady validate :=
  steady_model (.app (.both (steady_optionalField "escape" false steady_bool)
    (steady_optionalField "thread_safe" false steady_bool))
    (steady_optionalField "statements" [] (steady_list steady_declaration)))

/-! ## What is written is taken as it is -/

theorem listFrom_map {check : Json → Checked α} {f : α → Json} {xs : List α}
    (each : ∀ x ∈ xs, check (f x) = .ok x) (i : Nat) :
    Checked.listFrom check i (xs.map f) = .ok xs := by
  induction xs generalizing i with
  | nil => rfl
  | cons x xs ih =>
      rw [List.map_cons, Checked.listFrom, each x (List.mem_cons_self ..),
        ih fun y hy => each y (List.mem_cons_of_mem _ hy)]
      rfl

theorem checkList_map {check : Json → Checked α} {f : α → Json} {xs : List α}
    (each : ∀ x ∈ xs, check (f x) = .ok x) : checkList check (.list (xs.map f)) = .ok xs :=
  listFrom_map each 0

theorem checkTexts (texts : List String) : checkList checkText (jsonTexts texts) = .ok texts :=
  checkList_map fun _ _ => rfl

theorem checkOptional_json (s : Option String) : checkOptional (jsonOptional s) = .ok s := by
  cases s <;> rfl

theorem checkDepth_nat (depth : Nat) : checkDepth (.int depth) = .ok depth := by
  simp only [checkDepth, checkInt]
  rw [if_neg (by omega), Int.toNat_natCast]

theorem bindingFields_entries (b : Binding) : bindingFields (bindingEntries b) = .ok b := by
  simp [bindingFields, bindingEntries, required, Json.lookup, checkText, Checked.under, Checked.both]

theorem checkBindings (bs : List Binding) :
    checkList (model bindingFields) (jsonBindings bs) = .ok bs :=
  checkList_map fun b _ => bindingFields_entries b

theorem planFields_entries (plan : BuildPlan) (entries : Entries)
    (same : ∀ name ∈ plan.entries.map Prod.fst, Json.lookup name entries = Json.lookup name plan.entries) :
    planFields entries = .ok plan := by
  simp [BuildPlan.entries, Json.lookup] at same
  simp [planFields, required, pathsField, optionalField, bindingsField, same,
    checkTexts, checkOptional_json, checkBindings, Checked.under, Checked.both, Checked.app]

theorem checkPlans (plans : List BuildPlan) :
    checkList (model planFields) (.list (plans.map fun plan => .object plan.entries)) = .ok plans :=
  checkList_map fun plan _ => planFields_entries plan plan.entries fun _ _ => rfl

/-- Of a type that a manifest text can give. -/
def Declaration.IsWritten : Declaration → Prop
  | .foreign _ => False
  | _ => True

theorem checkDeclaration_tagged {tag : Tag} {entries : Entries} {d : Declaration}
    (untagged : Json.lookup "kind" entries = none)
    (fields : declarationFields (("kind", .text tag.name) :: entries) tag = .ok d) :
    checkDeclaration (Declaration.tagged tag entries) = .ok d := by
  have found : Json.lookup "kind" (("kind", .text tag.name) :: entries) = some (.text tag.name) := by
    rw [Json.lookup, untagged]
    rfl
  simp only [Declaration.tagged, checkDeclaration, found, tagOf?, Tag.ofName?_name, fields, Checked.under]

theorem checkDeclaration_toJson {d : Declaration} (written : d.IsWritten) :
    checkDeclaration d.toJson = .ok d := by
  cases d with
  | rule name command pool bs builds =>
      refine checkDeclaration_tagged (by simp [Json.lookup]) ?_
      simp [declarationFields, ruleFields, required, optionalField, bindingsField, Json.lookup, checkText,
        checkOptional_json, checkBindings, checkPlans, Checked.under, Checked.both, Checked.app]
  | build plan rule =>
      refine checkDeclaration_tagged (by simp [Json.lookup, BuildPlan.entries]) ?_
      have made := planFields_entries plan
        (("kind", .text Tag.build.name) :: (plan.entries ++ [("rule", .text rule)]))
        (by simp [Json.lookup, BuildPlan.entries])
      rw [declarationFields, made]
      simp [required, Json.lookup, BuildPlan.entries, checkText, Checked.under, Checked.both]
  | phony plan =>
      refine checkDeclaration_tagged (by simp [Json.lookup, BuildPlan.entries]) ?_
      have made := planFields_entries plan (("kind", .text Tag.phony.name) :: plan.entries)
        (by simp [Json.lookup, BuildPlan.entries])
      rw [declarationFields, made]
      rfl
  | pool name depth bs =>
      refine checkDeclaration_tagged (by simp [Json.lookup]) ?_
      simp [declarationFields, poolFields, required, optionalField, bindingsField, Json.lookup, checkText,
        checkDepth_nat, checkBindings, Checked.under, Checked.both, Checked.app]
  | binding b =>
      refine checkDeclaration_tagged (by simp [Json.lookup, bindingEntries]) ?_
      simp [declarationFields, bindingFields, bindingEntries, required, Json.lookup, checkText,
        Checked.under, Checked.both, Except.map]
  | comment text =>
      refine checkDeclaration_tagged (by simp [Json.lookup]) ?_
      simp [declarationFields, required, Json.lookup, checkText, Checked.under, Except.map]
  | defaults outputs =>
      refine checkDeclaration_tagged (by simp [Json.lookup]) ?_
      simp [declarationFields, required, Json.lookup, checkTexts, Checked.under, Except.map]
  | subninja path =>
      refine checkDeclaration_tagged (by simp [Json.lookup]) ?_
      simp [declarationFields, required, Json.lookup, checkText, Checked.under, Except.map]
  | inclusion path =>
      refine checkDeclaration_tagged (by simp [Json.lookup]) ?_
      simp [declarationFields, required, Json.lookup, checkText, Checked.under, Except.map]
  | foreign typeName => cases written

theorem validate_toJson {m : Manifest} (written : ∀ d ∈ m.declarations, d.IsWritten) :
    validate m.toJson = .ok m := by
  have declarations := checkList_map fun d hd => checkDeclaration_toJson (written d hd)
  simp [validate, model, toJson, manifestFields, optionalField, Json.lookup, checkBool, declarations,
    Checked.under, Checked.both, Checked.app]

/-! ## What is read can be written -/

theorem Checked.under_eq_ok {step : Step} {a : Checked α} {x : α} :
    a.under step = .ok x ↔ a = .ok x := by
  cases a <;> simp [Checked.under]

theorem Checked.both_eq_ok {f : α → β → γ} {a : Checked α} {b : Checked β} {z : γ} :
    Checked.both f a b = .ok z ↔ ∃ x y, a = .ok x ∧ b = .ok y ∧ f x y = z := by
  cases a <;> cases b <;> simp [Checked.both]

theorem Checked.app_eq_ok {f : Checked (α → β)} {a : Checked α} {z : β} :
    Checked.app f a = .ok z ↔ ∃ g x, f = .ok g ∧ a = .ok x ∧ g x = z :=
  Checked.both_eq_ok

theorem listFrom_eq_ok {check : Json → Checked α} {items : List Json} {i : Nat} {xs : List α}
    (h : Checked.listFrom check i items = .ok xs) : ∀ x ∈ xs, ∃ v ∈ items, check v = .ok x := by
  induction items generalizing i xs with
  | nil =>
      cases h
      exact fun x hx => absurd hx List.not_mem_nil
  | cons v items ih =>
      obtain ⟨x, rest, first, others, rfl⟩ := Checked.both_eq_ok.mp h
      refine List.forall_mem_cons.mpr ⟨⟨v, List.mem_cons_self .., Checked.under_eq_ok.mp first⟩, fun y hy => ?_⟩
      obtain ⟨w, hw, checked⟩ := ih others y hy
      exact ⟨w, List.mem_cons_of_mem _ hw, checked⟩

/-- The depth that a declaration gives, if it is one of a pool. -/
def Declaration.depth? : Declaration → Option Nat
  | .pool _ depth _ => some depth
  | _ => none

/-- A depth is what has been found under its key. -/
def Declaration.DepthIn (entries : Entries) (d : Declaration) : Prop :=
  ∀ depth, d.depth? = some depth → ∃ v, Json.lookup "depth" entries = some v ∧ checkDepth v = .ok depth

theorem Declaration.depthIn_of_none {entries : Entries} {d : Declaration} (h : d.depth? = none) :
    d.DepthIn entries := fun _ same => by
  rw [h] at same
  cases same

theorem eq_of_map_eq_ok {a : Checked α} {f : α → β} {y : β} (h : a.map f = .ok y) : ∃ x, f x = y := by
  cases a with
  | error issues => cases h
  | ok x => exact ⟨x, Except.ok.inj h⟩

theorem poolFields_eq_ok {entries : Entries} {d : Declaration} (h : poolFields entries = .ok d) :
    d.IsWritten ∧ d.DepthIn entries := by
  obtain ⟨make, bs, made, -, rfl⟩ := Checked.app_eq_ok.mp h
  obtain ⟨name, depth, -, checked, rfl⟩ := Checked.both_eq_ok.mp made
  refine ⟨trivial, fun depth' same => ?_⟩
  cases same
  rw [required, Checked.under_eq_ok] at checked
  cases found : Json.lookup "depth" entries with
  | none => simp [found, Checked.bad] at checked
  | some v =>
      rw [found] at checked
      exact ⟨v, rfl, checked⟩

theorem declarationFields_eq_ok {entries : Entries} {tag : Tag} {d : Declaration}
    (h : declarationFields entries tag = .ok d) : d.IsWritten ∧ d.DepthIn entries := by
  cases tag with
  | rule =>
      obtain ⟨makeRule, builds, rule, -, rfl⟩ := Checked.app_eq_ok.mp h
      obtain ⟨makeBound, bs, bound, -, rfl⟩ := Checked.app_eq_ok.mp rule
      obtain ⟨makePooled, pool, pooled, -, rfl⟩ := Checked.app_eq_ok.mp bound
      obtain ⟨name, command, -, -, rfl⟩ := Checked.both_eq_ok.mp pooled
      exact ⟨trivial, Declaration.depthIn_of_none rfl⟩
  | build =>
      obtain ⟨plan, rule, -, -, rfl⟩ := Checked.both_eq_ok.mp h
      exact ⟨trivial, Declaration.depthIn_of_none rfl⟩
  | pool => exact poolFields_eq_ok h
  | _ =>
      obtain ⟨x, rfl⟩ := eq_of_map_eq_ok h
      exact ⟨trivial, Declaration.depthIn_of_none rfl⟩

theorem checkDeclaration_eq_ok {v : Json} {d : Declaration} (h : checkDeclaration v = .ok d) :
    d.IsWritten ∧ ∃ entries, v = .object entries ∧ d.DepthIn entries := by
  cases v with
  | object entries =>
      simp only [checkDeclaration] at h
      split at h
      · cases h
      · split at h
        · cases h
        · obtain ⟨written, depths⟩ := declarationFields_eq_ok (Checked.under_eq_ok.mp h)
          exact ⟨written, entries, rfl, depths⟩
  | _ => cases h

theorem validate_eq_ok {v : Json} {m : Manifest} (h : validate v = .ok m) {d : Declaration}
    (hd : d ∈ m.declarations) :
    ∃ entries items w, v = .object entries ∧ Json.lookup "statements" entries = some (.list items) ∧
      w ∈ items ∧ checkDeclaration w = .ok d := by
  cases v with
  | object entries =>
      obtain ⟨make, declarations, made, checked, rfl⟩ := Checked.app_eq_ok.mp h
      obtain ⟨escape, threadSafe, -, -, rfl⟩ := Checked.both_eq_ok.mp made
      simp only [optionalField] at checked
      cases found : Json.lookup "statements" entries with
      | none =>
          rw [found] at checked
          cases checked
          cases hd
      | some w =>
          simp only [found] at checked
          have checked := Checked.under_eq_ok.mp checked
          cases w with
          | list items =>
              obtain ⟨w, hw, each⟩ := listFrom_eq_ok checked d hd
              exact ⟨entries, items, w, rfl, found, hw, each⟩
          | _ => cases checked
  | _ => cases h

/-! ## Depths -/

theorem wordLimit_lt : wordLimit.natAbs < 10 ^ digitLimit :=
  Nat.lt_of_lt_of_le (by decide : wordLimit.natAbs < 10 ^ 19) (Nat.pow_le_pow_right (by decide) (by decide))

theorem ofPlain_lt {text : List Char} {n : Int} (h : Numeral.ofPlain text = .int n) :
    n.natAbs < 10 ^ digitLimit := by
  simp only [Numeral.ofPlain, List.span_eq_takeWhile_dropWhile] at h
  generalize (if text.head? = some '-' then text.tail else text) = body at h
  have all : ∀ c ∈ body.takeWhile Double.isDigit, Double.isDigit c = true := fun c hc =>
    List.mem_takeWhile_imp hc
  generalize body.takeWhile Double.isDigit = digits at h all
  generalize (if text.head? = some '-' then 1 else 0) = sign at h
  split at h
  · cases h
  · split at h
    · cases h
      exact Nat.pow_pos (by decide)
    · cases h
  · cases h
  · split at h
    · cases h
    · next short =>
        have small : Double.digitsValue digits < 10 ^ digitLimit :=
          Nat.lt_of_lt_of_le (Double.digitsValue_lt all) (Nat.pow_le_pow_right (by decide) (by omega))
        by_cases ended : body.dropWhile Double.isDigit = []
        · rw [if_pos ended] at h
          obtain rfl := Numeral.int.inj h
          split <;> simpa using small
        · rw [if_neg ended] at h
          cases h

theorem ofText_lt {s : String} {n : Int} (h : Numeral.ofText s = .int n) :
    n.natAbs < 10 ^ digitLimit := by
  simp only [Numeral.ofText] at h
  split at h
  · split at h
    · next plain =>
        cases h
        obtain ⟨text, -, plain⟩ := Option.map_eq_some_iff.mp plain
        exact ofPlain_lt plain
    · cases h
  · exact ofPlain_lt h

theorem checkInt_lt {v : Json} {n : Int} (short : v.Short digitLimit) (h : checkInt v = .ok n) :
    n.natAbs < 10 ^ digitLimit := by
  have word := wordLimit_lt
  cases v with
  | int i =>
      cases h
      exact short _ rfl
  | bool b =>
      cases h
      refine Nat.lt_of_le_of_lt ?_ word
      cases b <;> decide
  | float x =>
      cases x with
      | finite negative mantissa exponent =>
          simp only [checkInt] at h
          split at h
          · cases h
          · split at h
            · next range =>
                cases h
                refine Nat.lt_of_le_of_lt ?_ word
                omega
            · cases h
      | _ => cases h
  | text s =>
      simp only [checkInt] at h
      split at h
      · next numeral =>
          cases h
          exact ofText_lt numeral
      · cases h
      · cases h
  | _ => cases h

theorem checkDepth_lt {v : Json} {depth : Nat} (short : v.Short digitLimit)
    (h : checkDepth v = .ok depth) : depth < 10 ^ digitLimit := by
  rw [checkDepth] at h
  split at h
  · cases h
  · next n int =>
      split at h
      · cases h
      · cases h
        have := checkInt_lt short int
        omega

/-! ## Texts -/

/-- What is read from a text can be written again: a depth may have come from a text, a truth
value or a fraction, but it is an integer then that is no longer than one in JSON may be. -/
def Writable (m : Manifest) : Prop :=
  ∀ d ∈ m.declarations, d.IsWritten ∧ ∀ depth, d.depth? = some depth → depth < 10 ^ digitLimit

theorem ofText_eq_ok {text : String} {m : Manifest} (h : ofText text = .ok m) :
    ∃ v, Json.read? limits text = some v ∧ validate v = .ok m := by
  rw [ofText] at h
  split at h
  · cases h
  · next v read => exact ⟨v, read, h⟩

theorem writable_of_ofText {text : String} {m : Manifest} (h : ofText text = .ok m) : m.Writable := by
  obtain ⟨v, read, valid⟩ := ofText_eq_ok h
  have fits := (Json.read?_none_of_limited read).2
  intro d hd
  obtain ⟨entries, items, w, rfl, found, hw, checked⟩ := validate_eq_ok valid hd
  obtain ⟨written, fields, rfl, depths⟩ := checkDeclaration_eq_ok checked
  refine ⟨written, fun depth same => ?_⟩
  obtain ⟨u, place, depth⟩ := depths depth same
  have list := (Json.fits_object.mp fits).2 _ (Json.mem_of_lookup found)
  have object := (Json.fits_list.mp list).2 _ hw
  have number := (Json.fits_object.mp object).2 _ (Json.mem_of_lookup place)
  exact checkDepth_lt number.short depth

section

variable {P : Json → Prop} {D d k : Nat}

theorem fits_texts (depth : d + 1 ≤ D) (texts : List String) : (jsonTexts texts).Fits P D d := by
  simp only [jsonTexts, Json.fits_list, List.forall_mem_map, Json.fits_text]
  exact ⟨by omega, fun _ _ => depth⟩

theorem fits_optional (depth : d ≤ D) (null : P .null) (s : Option String) :
    (jsonOptional s).Fits P D d := by
  cases s with
  | none => exact .scalar depth trivial null
  | some s => exact .text depth

theorem fits_bindings (depth : d + 2 ≤ D) (bs : List Binding) : (jsonBindings bs).Fits P D d := by
  simp only [jsonBindings, bindingEntries, Json.fits_list, Json.fits_object, Json.fits_text,
    List.forall_mem_map, List.forall_mem_cons]
  exact ⟨by omega, fun _ _ => ⟨by omega, depth, depth, fun _ mem => absurd mem List.not_mem_nil⟩⟩

theorem fits_plan (depth : d + 4 ≤ D) (null : P .null) (plan : BuildPlan) :
    (Json.object plan.entries).Fits P D d := by
  have texts := fits_texts (P := P) (D := D) (d := d + 1) (by omega)
  have bindings := fits_bindings (P := P) (D := D) (d := d + 1) (by omega)
  have optional := fits_optional (P := P) (D := D) (d := d + 1) (by omega) null
  simp [Json.fits_object, BuildPlan.entries, texts, bindings, optional]
  omega

theorem fits_tagged (depth : d + 1 ≤ D) {tag : Tag} {entries : Entries}
    (each : ∀ e ∈ entries, e.2.Fits P D (d + 1)) : (Declaration.tagged tag entries).Fits P D d :=
  .object (by omega) (List.forall_mem_cons.mpr ⟨.text depth, each⟩)

theorem fits_toJson (depth : d + 6 ≤ D) (null : P .null) {declaration : Declaration}
    (number : ∀ depth : Nat, declaration.depth? = some depth → P (.int depth)) :
    declaration.toJson.Fits P D d := by
  have text (s : String) : (Json.text s).Fits P D (d + 1) := .text (by omega)
  have texts := fits_texts (P := P) (D := D) (d := d + 1) (by omega)
  have bindings := fits_bindings (P := P) (D := D) (d := d + 1) (by omega)
  have plan (plan : BuildPlan) := (Json.fits_object.mp (fits_plan (D := D) (d := d) (by omega) null plan)).2
  cases declaration with
  | rule name command pool bs builds =>
      have inner : (Json.list (builds.map fun plan => .object plan.entries)).Fits P D (d + 1) :=
        .list (by omega) (List.forall_mem_map.mpr fun plan _ => fits_plan (by omega) null plan)
      refine fits_tagged (by omega) ?_
      simp [text, bindings, inner, fits_optional (show d + 1 ≤ D by omega) null]
  | build p rule =>
      refine fits_tagged (by omega) (List.forall_mem_append.mpr ⟨plan p, ?_⟩)
      simp [text]
  | phony p => exact fits_tagged (by omega) (plan p)
  | pool name depth bs =>
      have number : (Json.int depth).Fits P D (d + 1) := .scalar (by omega) trivial (number depth rfl)
      refine fits_tagged (by omega) ?_
      simp [text, bindings, number]
  | binding b =>
      refine fits_tagged (by omega) ?_
      simp [bindingEntries, text]
  | defaults outputs =>
      refine fits_tagged (by omega) ?_
      simp [texts]
  | foreign => exact .scalar (by omega) trivial null
  | _ =>
      refine fits_tagged (by omega) ?_
      simp [text]

end

/-- What a manifest is written as keeps the limits of a reader. -/
theorem Writable.fits {m : Manifest} (h : m.Writable) : m.toJson.Fits (Json.Modest digitLimit) 200 0 := by
  have declarations : (Json.list (m.declarations.map Declaration.toJson)).Fits
      (Json.Modest digitLimit) 200 1 := by
    refine .list (by decide) (List.forall_mem_map.mpr fun d hd => fits_toJson (by decide) trivial ?_)
    exact fun depth same => Json.modest_nat ((h d hd).2 depth same)
  have truth (b : Bool) : (Json.bool b).Fits (Json.Modest digitLimit) 200 1 :=
    .scalar (by decide) trivial trivial
  refine .object (by decide) ?_
  simp [truth, declarations]

/-- Whatever text has the value that a manifest from a text is written as, it is read as that
manifest.  The value may be one that is read within the limits, or any that has no key twice. -/
theorem ofText_written {text : String} {m : Manifest} (h : ofText text = .ok m) {text' : String}
    {v : Json} (same : v.Same m.toJson)
    (reads : Json.read? limits text' = some v ∨ Json.read? .none text' = some v ∧ v.Distinct) :
    ofText text' = .ok m := by
  have writable := writable_of_ofText h
  have read : Json.read? limits text' = some v := by
    obtain read | ⟨read, distinct⟩ := reads
    · exact read
    · exact Json.read?_limited (by decide) read (writable.fits.of_same same distinct)
  rw [ofText, read]
  exact (steady_validate same).trans (validate_toJson fun d hd => (writable d hd).1)

set_option maxRecDepth 2000 in
theorem ofText_written_pooled :
    ∃ m,
      ofText "\x7b\"statements\": [\x7b\"depth\": true, \"kind\": \"pool\", \"name\": \"p\"\x7d], \"escape\": 1\x7d" =
        .ok m ∧
      ofText "\x7b\"escape\": 3, \"statements\": [\x7b\"kind\": \"pool\", \"name\": \"p\", \"depth\": 1, \"variables\": []\x7d], \"thread_safe\": false, \"escape\": true\x7d" =
        .ok m := by
  have first :
      ofText "\x7b\"statements\": [\x7b\"depth\": true, \"kind\": \"pool\", \"name\": \"p\"\x7d], \"escape\": 1\x7d" =
        .ok ⟨true, false, [.pool "p" 1 []]⟩ := by rfl
  refine ⟨_, first, ofText_written first (v := .object [("escape", .int 3),
    ("statements", .list [(Declaration.pool "p" 1 []).toJson]), ("thread_safe", .bool false),
    ("escape", .bool true)]) (.object fun key => ?_) (.inl (by rfl))⟩
  -- The objects have three keys, and no other key leads anywhere in them.
  by_cases escape : "escape" = key
  · subst escape
    exact .some (Json.same_refl _)
  by_cases threadSafe : "thread_safe" = key
  · subst threadSafe
    exact .some (Json.same_refl _)
  by_cases statements : "statements" = key
  · subst statements
    exact .some (Json.same_refl _)
  simp only [Json.lookup, escape, threadSafe, statements, if_false]
  exact .none

end Manifest

end NinjaFile
