import NinjaFile.Proofs.Layout.Spacing
import NinjaFile.Proofs.Manifest.Dump
import NinjaFile.Proofs.Manifest.Rebuilding

/-!
# Depths of pools

A depth may be given as a number, a truth value or a text.  However it is given, the first
binding of the pool is its plain decimal numeral, and the file would be the same had it been
given as that number.
-/

namespace NinjaFile

open Action Manifest

/-! ## Numerals -/

/-- A plain decimal numeral: digits and nothing else, and no zero in front of others. -/
structure Canonical (n : Nat) (numeral : String) : Prop where
  nonempty : numeral ≠ ""
  digits : ∀ c ∈ numeral.toList, Double.isDigit c = true
  leading : numeral.toList.head? = some '0' → numeral = "0"
  value : Double.digitsValue numeral.toList = n

theorem head?_toDigits_ne_zero {n : Nat} (positive : 0 < n) : (Nat.toDigits 10 n).head? ≠ some '0' := by
  induction n using Nat.base_induction 10 (by decide) with
  | single n small =>
      have all : ∀ m : Fin 10, 0 < m.val → m.val.digitChar ≠ '0' := by decide
      simpa [Nat.toDigits_of_lt_base small] using all ⟨n, small⟩ positive
  | digit n k hk hn ih =>
      rw [← Nat.toDigits_append_toDigits (by decide) hn hk, List.head?_append_of_ne_nil _ Nat.toDigits_ne_nil]
      exact ih hn

theorem digitsValue_eq (digits : List Char) :
    Double.digitsValue digits = Nat.ofDigitChars 10 digits 0 := by
  simp [Double.digitsValue, Nat.ofDigitChars, Nat.mul_comm]

theorem canonical_toString (n : Nat) : Canonical n (toString n) where
  nonempty := Nat.repr_ne_empty
  digits c hc := by
    have digit := Nat.isDigit_of_mem_toDigits (by decide) (by decide) (Nat.toList_repr ▸ hc)
    simpa [Double.isDigit, Char.isDigit, Char.le_def] using digit
  leading first := by
    by_cases zero : n = 0
    · subst zero
      rfl
    · rw [Nat.toString_eq_repr, Nat.toList_repr] at first
      exact absurd first (head?_toDigits_ne_zero (by omega))
  value := by
    rw [digitsValue_eq, Nat.toString_eq_repr, Nat.toList_repr, Nat.ofDigitChars_ten_toDigits]

/-! ## Changing a value -/

namespace Json

/-- Puts something in the place of what a key leads to. -/
def setField (key : String) (f : Json → Json) : Json → Json
  | .object entries => .object (entries.map fun e => if e.1 = key then (e.1, f e.2) else e)
  | v => v

def setItem (i : Nat) (f : Json → Json) : Json → Json
  | .list items => .list (items.modify i f)
  | v => v

/-- The manifest whose statement `i` has another depth. -/
def withDepth (v : Json) (i depth : Nat) : Json :=
  v.setField "statements" (setItem i (setField "depth" fun _ => .int depth))

def field? (key : String) : Json → Option Json
  | .object entries => lookup key entries
  | _ => none

def item? (i : Nat) : Json → Option Json
  | .list items => items[i]?
  | _ => none

/-- What a manifest has for the depth of its statement `i`. -/
def depthAt? (v : Json) (i : Nat) : Option Json :=
  ((v.field? "statements").bind (item? i)).bind (field? "depth")

theorem lookup_map (key name : String) (f : Json → Json) (entries : List (String × Json)) :
    lookup name (entries.map fun e => if e.1 = key then (e.1, f e.2) else e) =
      if name = key then (lookup name entries).map f else lookup name entries := by
  induction entries with
  | nil => simp [lookup]
  | cons e entries ih =>
      rw [List.map_cons, lookup, lookup, ih]
      by_cases same : name = key
      · subst same
        cases lookup name entries <;> by_cases here : e.1 = name <;> simp [here]
      · cases lookup name entries <;> by_cases here : e.1 = key <;> simp [here, same, Ne.symm same]

theorem field?_setField (v : Json) (key name : String) (f : Json → Json) :
    (v.setField key f).field? name = if name = key then (v.field? name).map f else v.field? name := by
  cases v with
  | object entries => exact lookup_map key name f entries
  | _ => simp [setField, field?]

theorem item?_setItem (v : Json) (i : Nat) (f : Json → Json) :
    (v.setItem i f).item? i = (v.item? i).map f := by
  cases v with
  | list items => simp [setItem, item?]
  | _ => rfl

theorem depthAt?_withDepth {v w : Json} {i : Nat} (found : v.depthAt? i = some w) (depth : Nat) :
    (v.withDepth i depth).depthAt? i = some (.int depth) := by
  unfold depthAt? at found
  simp only [Option.bind_eq_some_iff] at found
  obtain ⟨item, ⟨list, statements, place⟩, under⟩ := found
  simp [depthAt?, withDepth, field?_setField, item?_setItem, statements, place, under]

end Json

namespace Manifest

variable {α : Type} {name : String} {depth : Nat} {bindings : List Binding}

theorem poolFields_setField {entries : Entries}
    (h : poolFields entries = .ok (.pool name depth bindings)) :
    poolFields (entries.map fun e => if e.1 = "depth" then (e.1, .int depth) else e) =
      .ok (.pool name depth bindings) := by
  have found key := Json.lookup_map "depth" key (fun _ => .int depth) entries
  obtain ⟨w, was, number⟩ := (poolFields_eq_ok h).2 depth rfl
  rw [← h]
  simp [poolFields, bindingsField, required, optionalField, found, was, checkDepth_nat, number]

theorem tag_of_depth {entries : Entries} {tag : Tag} {d : Declaration}
    (h : declarationFields entries tag = .ok d) (deep : d.depth? = some depth) : tag = .pool := by
  cases tag with
  | pool => rfl
  | rule =>
      obtain ⟨makeRule, builds, rule, -, rfl⟩ := Checked.app_eq_ok.mp h
      obtain ⟨makeBound, bs, bound, -, rfl⟩ := Checked.app_eq_ok.mp rule
      obtain ⟨makePooled, pool, pooled, -, rfl⟩ := Checked.app_eq_ok.mp bound
      obtain ⟨name, command, -, -, rfl⟩ := Checked.both_eq_ok.mp pooled
      cases deep
  | build =>
      obtain ⟨plan, rule, -, -, rfl⟩ := Checked.both_eq_ok.mp h
      cases deep
  | _ =>
      obtain ⟨x, rfl⟩ := eq_of_map_eq_ok h
      cases deep

theorem checkDeclaration_setField {v : Json}
    (h : checkDeclaration v = .ok (.pool name depth bindings)) :
    checkDeclaration (v.setField "depth" fun _ => .int depth) = .ok (.pool name depth bindings) := by
  cases v with
  | object entries =>
      simp only [checkDeclaration] at h
      split at h
      · cases h
      · next kind tagged =>
          split at h
          · cases h
          · next tag known =>
              have fields := Checked.under_eq_ok.mp h
              obtain rfl := tag_of_depth fields rfl
              have found := Json.lookup_map "depth" "kind" (fun _ => .int depth) entries
              simp only [tagged, show "kind" ≠ "depth" by decide, if_false] at found
              simp only [Json.setField, checkDeclaration, found, known, declarationFields,
                poolFields_setField fields, Checked.under]
  | _ => cases h

variable {check : Json → Checked α} {items : List Json} {xs : List α} {k i : Nat} {x : α}

theorem listFrom_getElem? (h : Checked.listFrom check k items = .ok xs) (found : xs[i]? = some x) :
    ∃ v, items[i]? = some v ∧ check v = .ok x := by
  induction items generalizing k xs i with
  | nil =>
      cases h
      cases found
  | cons v items ih =>
      obtain ⟨y, rest, first, others, rfl⟩ := Checked.both_eq_ok.mp h
      cases i with
      | zero =>
          cases found
          exact ⟨v, rfl, Checked.under_eq_ok.mp first⟩
      | succ i => exact ih others found

theorem listFrom_modify (h : Checked.listFrom check k items = .ok xs) {f : Json → Json}
    (found : xs[i]? = some x) (same : ∀ v, check v = .ok x → check (f v) = .ok x) :
    Checked.listFrom check k (items.modify i f) = .ok xs := by
  induction items generalizing k xs i with
  | nil => simpa using h
  | cons v items ih =>
      obtain ⟨y, rest, first, others, rfl⟩ := Checked.both_eq_ok.mp h
      cases i with
      | zero =>
          cases found
          rw [List.modify_zero_cons, Checked.listFrom, same v (Checked.under_eq_ok.mp first), others]
          rfl
      | succ i =>
          rw [List.modify_succ_cons, Checked.listFrom, first, ih others found]
          rfl

theorem list_of_validate {v : Json} {m : Manifest} {d : Declaration} (h : validate v = .ok m)
    (mem : d ∈ m.declarations) :
    ∃ items, v.field? "statements" = some (.list items) ∧
      Checked.listFrom checkDeclaration 0 items = .ok m.declarations := by
  cases v with
  | object entries =>
      obtain ⟨make, declarations, made, checked, rfl⟩ := Checked.app_eq_ok.mp h
      obtain ⟨escape, threadSafe, -, -, rfl⟩ := Checked.both_eq_ok.mp made
      simp only [optionalField] at checked
      cases statements : Json.lookup "statements" entries with
      | none =>
          rw [statements] at checked
          cases checked
          cases mem
      | some w =>
          rw [statements] at checked
          cases w with
          | list items => exact ⟨items, statements, Checked.under_eq_ok.mp checked⟩
          | _ => cases Checked.under_eq_ok.mp checked
  | _ => cases h

theorem validate_setField {v w : Json} {m : Manifest} {f : Json → Json} (h : validate v = .ok m)
    (statements : v.field? "statements" = some w)
    (same : checkList checkDeclaration (f w) = .ok m.declarations) :
    validate (v.setField "statements" f) = .ok m := by
  cases v with
  | object entries =>
      obtain ⟨make, declarations, made, -, rfl⟩ := Checked.app_eq_ok.mp h
      obtain ⟨escape, threadSafe, escaped, threads, rfl⟩ := Checked.both_eq_ok.mp made
      have found key := Json.lookup_map "statements" key f entries
      simp only [Json.field?] at statements
      simp only [Json.setField, validate, model, manifestFields]
      generalize entries.map _ = changed at found ⊢
      have escaped' : optionalField changed "escape" false checkBool = .ok escape := by
        simpa [optionalField, found] using escaped
      have threads' : optionalField changed "thread_safe" false checkBool = .ok threadSafe := by
        simpa [optionalField, found] using threads
      have list : optionalField changed "statements" [] (checkList checkDeclaration) =
          .ok declarations := by
        simp [optionalField, found, statements, same, Checked.under]
      simp [escaped', threads', list, Checked.both, Checked.app]
  | _ => cases h

theorem validate_withDepth {v : Json} {m : Manifest} (h : validate v = .ok m)
    (pool : m.declarations[i]? = some (.pool name depth bindings)) :
    validate (v.withDepth i depth) = .ok m ∧
      ∃ w, v.depthAt? i = some w ∧ checkDepth w = .ok depth := by
  obtain ⟨items, statements, list⟩ := list_of_validate h (List.mem_of_getElem? pool)
  obtain ⟨u, place, declared⟩ := listFrom_getElem? list pool
  obtain ⟨-, fields, rfl, depths⟩ := checkDeclaration_eq_ok declared
  obtain ⟨w, under, number⟩ := depths depth rfl
  refine ⟨validate_setField h statements ?_, w, ?_, number⟩
  · exact listFrom_modify list pool fun v => checkDeclaration_setField
  · rw [Json.depthAt?, statements, Option.bind_some, Json.item?, place, Option.bind_some]
    exact under

/-- Whatever the settings, building gives a document with this text. -/
def BuildsTo (m : Manifest) (text : String) : Prop :=
  ∀ config s, TypedConfig config → s.assigned = [] → ∃ b d s',
    (Builder.ofManifest m config).build.alone s = (.ok (b, .ok d), s') ∧
      d.render.alone s' = (.ok text, s')

theorem buildsTo_of_right {m : Manifest} (right : firstFault? [] 0 m.declarations = none) :
    m.BuildsTo (Layout.file Layout.defaultIndent m.expand) := by
  intro config s typed unassigned
  obtain ⟨⟨b, outcome⟩, s', built, ends⟩ :=
    Builder.returns_build typed (fun i _ => Store.bare_of_assigned_nil unassigned i) m
  rw [right] at ends
  obtain ⟨d, a, rfl, replayed⟩ := ends
  obtain ⟨vs, hb⟩ := replayed.building
  exact ⟨b, d, s', built, hb.alone_render unassigned (visible_expandAll _ _)⟩

/-- A document that has been built has the text that building always gives. -/
theorem buildsTo_of_built {m : Manifest} {config : List (Value × Value)} {s s' : Store} {b : Builder}
    {d : DocumentId} (typed : TypedConfig config) (unassigned : s.assigned = [])
    (built : (Builder.ofManifest m config).build.alone s = (.ok (b, .ok d), s')) :
    m.BuildsTo (Layout.file Layout.defaultIndent m.expand) ∧
      d.render.alone s' = (.ok (Layout.file Layout.defaultIndent m.expand), s') := by
  have builds : m.BuildsTo (Layout.file Layout.defaultIndent m.expand) := by
    refine buildsTo_of_right ?_
    obtain ⟨r, s'', again, ends⟩ :=
      Builder.returns_build typed (fun i _ => Store.bare_of_assigned_nil unassigned i) m
    cases built.symm.trans again
    cases first : firstFault? [] 0 m.declarations with
    | none => rfl
    | some first' =>
        rw [first] at ends
        cases ends
  obtain ⟨b', d', s'', again, rendered⟩ := builds config s typed unassigned
  cases built.symm.trans again
  exact ⟨builds, rendered⟩

theorem linesFrom_pool (last : Option Kind) (rest : List Statement) :
    Layout.linesFrom Layout.defaultIndent last
        (.pool name ((⟨"depth", toString depth⟩ :: bindings).map .binding) false :: rest) =
      Layout.separator last .pool ++ ("pool " ++ name) :: ("  depth = " ++ toString depth) ::
        (Layout.blockLines Layout.defaultIndent (bindings.map .binding) ++
          Layout.linesFrom Layout.defaultIndent (some .pool) rest) := by
  have first : Layout.defaultIndent ++ Binding.render ⟨"depth", toString depth⟩ =
      "  depth = " ++ toString depth := by
    rw [Binding.render, ← String.append_assoc]
    rfl
  rw [Layout.linesFrom_visible last rfl, ← first]
  simp [Layout.lines, Layout.blockLines, Layout.indentLines, Layout.poolHeader, Statement.kind]

theorem file_expand_of_pool {m : Manifest}
    (pool : m.declarations[i]? = some (.pool name depth bindings)) :
    let before := expandAll m.escape (m.declarations.take i)
    ∃ after, Layout.file Layout.defaultIndent m.expand =
      Layout.joinLines
        (Layout.linesFrom Layout.defaultIndent none before ++
          Layout.separator (Layout.lastKind before) .pool ++
          ("pool " ++ name) :: ("  depth = " ++ toString depth) :: after) := by
  intro before
  obtain ⟨short, at_⟩ := List.getElem?_eq_some_iff.mp pool
  have split : m.expand = before ++ Declaration.expand m.escape (.pool name depth bindings) ++
      expandAll m.escape (m.declarations.drop (i + 1)) := by
    rw [expand, ← expandAll_singleton, ← expandAll_append, ← expandAll_append, List.append_assoc,
      List.singleton_append, ← at_, ← List.drop_eq_getElem_cons, List.take_append_drop]
  rw [split, Layout.file, List.append_assoc, Layout.linesFrom_append, Declaration.expand,
    List.singleton_append, linesFrom_pool, Option.or_none, ← List.append_assoc]
  exact ⟨_, rfl⟩

/-- The depth of a pool is written as a plain numeral, whatever it has been read from: the lines
of the pool begin with it, and a manifest that has the number itself in that place is built to the
same text. -/
theorem build_pool_depth {text : String} {m : Manifest} (loads : ofText text = .ok m)
    {config : List (Value × Value)} (typed : TypedConfig config) {s s' : Store}
    (unassigned : s.assigned = []) {b : Builder} {d : DocumentId}
    (built : (Builder.ofManifest m config).build.alone s = (.ok (b, .ok d), s'))
    (pool : m.declarations[i]? = some (.pool name depth bindings)) :
    ∃ rendered front numeral after v w,
      d.render.alone s' = (.ok rendered, s') ∧
      rendered = Layout.joinLines (front ++ ("pool " ++ name) :: ("  depth = " ++ numeral) :: after) ∧
      front = (let before := expandAll m.escape (m.declarations.take i)
        Layout.linesFrom Layout.defaultIndent none before ++
          Layout.separator (Layout.lastKind before) .pool) ∧
      Canonical depth numeral ∧ numeral.length ≤ digitLimit ∧
      Json.read? limits text = some v ∧ v.depthAt? i = some w ∧ checkDepth w = .ok depth ∧
      (v.withDepth i depth).depthAt? i = some (.int depth) ∧
      ∀ text' v', Json.read? limits text' = some v' → v'.Same (v.withDepth i depth) →
        ∃ m', ofText text' = .ok m' ∧ m'.BuildsTo rendered := by
  obtain ⟨v, read, valid⟩ := ofText_eq_ok loads
  obtain ⟨revalid, w, found, number⟩ := validate_withDepth valid pool
  obtain ⟨after, lines⟩ := file_expand_of_pool pool
  obtain ⟨builds, rendered⟩ := buildsTo_of_built typed unassigned built
  have short : (toString depth).length ≤ digitLimit := by
    have small := (writable_of_ofText loads _ (List.mem_of_getElem? pool)).2 depth rfl
    rw [Nat.toString_eq_repr, ← String.length_toList, Nat.toList_repr]
    exact (Nat.length_toDigits_le_iff (by decide) (by decide)).mpr small
  refine ⟨_, _, toString depth, after, v, w, rendered, lines, rfl, canonical_toString depth, short, read,
    found, number, Json.depthAt?_withDepth found depth, fun text' v' read' same => ⟨m, ?_, builds⟩⟩
  rw [ofText, read']
  exact (steady_validate same).trans revalid

set_option maxRecDepth 4000 in
theorem build_pool_depth_text :
    ∃ m b d s' rendered,
      ofText "\x7b\"statements\": [\x7b\"kind\": \"pool\", \"name\": \"p\", \"depth\": \" +0_10.0\"\x7d]\x7d" =
        .ok m ∧
      (Builder.ofManifest m []).build.alone (Store.ofFiles ⟨[], []⟩) = (.ok (b, .ok d), s') ∧
      d.render.alone s' = (.ok rendered, s') ∧
      ∃ m',
        ofText "\x7b\"statements\": [\x7b\"kind\": \"pool\", \"name\": \"p\", \"depth\": 10\x7d]\x7d" =
          .ok m' ∧ m'.BuildsTo rendered := by
  have loads :
      ofText "\x7b\"statements\": [\x7b\"kind\": \"pool\", \"name\": \"p\", \"depth\": \" +0_10.0\"\x7d]\x7d" =
        .ok ⟨false, false, [.pool "p" 10 []]⟩ := by rfl
  have typed : TypedConfig [] := ⟨nofun, nofun, nofun⟩
  have right : firstFault? [] 0 [.pool "p" 10 []] = none := rfl
  obtain ⟨b, d, s', built, -⟩ :=
    buildsTo_of_right (m := ⟨false, false, [.pool "p" 10 []]⟩) right [] (Store.ofFiles ⟨[], []⟩) typed rfl
  obtain ⟨rendered, -, -, -, v, -, renders, -, -, -, -, read, -, -, -, again⟩ :=
    build_pool_depth loads typed rfl built (i := 0) rfl
  let json (depth : Json) : Json := .object [("statements", .list [.object [("kind", .text "pool"),
    ("name", .text "p"), ("depth", depth)]])]
  have value : Json.read? limits "\x7b\"statements\": [\x7b\"kind\": \"pool\", \"name\": \"p\", \"depth\": \" +0_10.0\"\x7d]\x7d" =
      some (json (.text " +0_10.0")) := by rfl
  obtain rfl := Option.some.inj (value.symm.trans read)
  exact ⟨_, b, d, s', rendered, loads, built, renders, again _ (json (.int 10)) (by rfl) (Json.same_refl _)⟩

end Manifest
end NinjaFile
