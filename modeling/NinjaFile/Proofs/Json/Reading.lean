import Mathlib.Data.List.Forall2
import NinjaFile.Json.Reader
import NinjaFile.Proofs.Json.Scanning

/-!
# Limits of a reader

A text that is read within limits is read in the same way without any, and its value keeps the
limits; and a text whose value keeps them is read within them.
-/

namespace NinjaFile.Json

variable {P : Json → Prop} {D d : Nat} {stack : List Frame} {v : Json}

/-- Nothing lies in more than `D` containers, if the value itself lies in `d`, and what is neither
a text nor a container is as `P` says. -/
inductive Fits (P : Json → Prop) (D : Nat) : Nat → Json → Prop where
  | scalar {d : Nat} {v : Json} (depth : d ≤ D) (scalar : v.IsScalar) (holds : P v) : Fits P D d v
  | text {d : Nat} {s : String} (depth : d ≤ D) : Fits P D d (.text s)
  | list {d : Nat} {items : List Json} (depth : d ≤ D) (each : ∀ v ∈ items, Fits P D (d + 1) v) :
      Fits P D d (.list items)
  | object {d : Nat} {entries : List (String × Json)} (depth : d ≤ D)
      (each : ∀ e ∈ entries, Fits P D (d + 1) e.2) : Fits P D d (.object entries)

theorem fits_scalar (scalar : v.IsScalar) : v.Fits P D d ↔ d ≤ D ∧ P v := by
  refine ⟨fun h => ?_, fun h => .scalar h.1 scalar h.2⟩
  cases h with
  | scalar depth _ holds => exact ⟨depth, holds⟩
  | _ => cases scalar

theorem fits_text {s : String} : (Json.text s).Fits P D d ↔ d ≤ D := by
  refine ⟨fun h => ?_, .text⟩
  cases h <;> assumption

theorem fits_list {items : List Json} :
    (Json.list items).Fits P D d ↔ d ≤ D ∧ ∀ v ∈ items, v.Fits P D (d + 1) := by
  refine ⟨fun h => ?_, fun h => .list h.1 h.2⟩
  cases h with
  | scalar _ scalar => cases scalar
  | list depth each => exact ⟨depth, each⟩

theorem fits_object {entries : List (String × Json)} :
    (Json.object entries).Fits P D d ↔ d ≤ D ∧ ∀ e ∈ entries, e.2.Fits P D (d + 1) := by
  refine ⟨fun h => ?_, fun h => .object h.1 h.2⟩
  cases h with
  | scalar _ scalar => cases scalar
  | object depth each => exact ⟨depth, each⟩

/-! ## Open containers -/

/-- What a container holds so far. -/
def Frame.values : Frame → List Json
  | .list items => items
  | .object entries _ => entries.map Prod.snd

/-- What has been read of open containers keeps the limits. -/
def StackFits (P : Json → Prop) (D : Nat) : List Frame → Prop
  | [] => True
  | frame :: rest =>
      rest.length ≤ D ∧ (∀ v ∈ frame.values, v.Fits P D (rest.length + 1)) ∧ StackFits P D rest

/-- What has been read keeps the limits. -/
def Reading.Fits (P : Json → Prop) (D : Nat) (r : Reading) : Prop :=
  match r.expect with
  | .nothing v => v.Fits P D 0
  | .firstKey entries | .key entries => StackFits P D (.object entries "" :: r.stack)
  | _ => StackFits P D r.stack

theorem deliver_fits : (deliver stack v).Fits P D ↔ StackFits P D stack ∧ v.Fits P D stack.length := by
  cases stack with
  | nil => simp [deliver, Reading.Fits, StackFits]
  | cons frame rest =>
      cases frame <;>
        simp [deliver, Reading.Fits, StackFits, Frame.values, and_left_comm, and_comm]

variable {limits : Limits} {r r' : Reading} {token : Token}

theorem beginValue_eq (depth : limits.depth = some D) :
    beginValue limits stack token = if stack.length ≤ D then beginValue .none stack token else none := by
  by_cases room : stack.length ≤ D <;> simp [beginValue, Limits.admits, Limits.none, depth, room]

theorem begun_fits (h : beginValue .none stack token = some r')
    (scalar : ∀ v, token = .scalar v → v.IsScalar) :
    r'.Fits P D ↔ stack.length ≤ D ∧ StackFits P D stack ∧ ∀ v, token = .scalar v → P v := by
  have all : Limits.none.admits stack.length = true := rfl
  cases token with
  | text s =>
      obtain rfl : deliver stack (.text s) = r' := by simpa [beginValue, all] using h
      simp [deliver_fits, fits_text, and_comm]
  | scalar v =>
      obtain rfl : deliver stack v = r' := by simpa [beginValue, all] using h
      simp [deliver_fits, fits_scalar (scalar v rfl), and_left_comm]
  | openList =>
      obtain rfl : ⟨.list [] :: stack, .item⟩ = r' := by simpa [beginValue, all] using h
      simp [Reading.Fits, StackFits, Frame.values]
  | openObject =>
      obtain rfl : ⟨stack, .firstKey []⟩ = r' := by simpa [beginValue, all] using h
      simp [Reading.Fits, StackFits, Frame.values]
  | _ => simp [beginValue, all] at h

theorem beginValue_fits (depth : limits.depth = some D) (scalar : ∀ v, token = .scalar v → v.IsScalar) :
    (beginValue limits stack token = some r' ∧ StackFits P D stack ∧ ∀ v, token = .scalar v → P v) ↔
      beginValue .none stack token = some r' ∧ r'.Fits P D := by
  rw [beginValue_eq depth]
  constructor
  · rintro ⟨begun, fits⟩
    obtain ⟨room, begun⟩ := Option.ite_none_right_eq_some.mp begun
    exact ⟨begun, (begun_fits begun scalar).mpr ⟨room, fits⟩⟩
  · rintro ⟨begun, fits⟩
    obtain ⟨room, fits⟩ := (begun_fits begun scalar).mp fits
    exact ⟨(if_pos room).trans begun, fits⟩

/-! ## Steps -/

/-- A token that starts no value is taken the same way within all limits, and what has been read
does not change. -/
def Passes (P : Json → Prop) (D : Nat) (r : Reading) (token : Token) : Prop :=
  (∀ limits, advance limits r token = advance .none r token) ∧
    ∀ r', advance .none r token = some r' → (∀ v, token ≠ .scalar v) ∧ (r'.Fits P D ↔ r.Fits P D)

theorem deliver_list_fits {items : List Json} :
    (deliver stack (.list items.reverse)).Fits P D ↔ StackFits P D (.list items :: stack) := by
  rw [deliver_fits, fits_list, StackFits, Frame.values, and_comm, and_assoc]
  simp only [List.mem_reverse]

theorem deliver_object_fits {entries : List (String × Json)} {key : String} :
    (deliver stack (.object entries.reverse)).Fits P D ↔ StackFits P D (.object entries key :: stack) := by
  rw [deliver_fits, fits_object, StackFits, Frame.values, and_comm, and_assoc]
  simp only [List.mem_reverse, List.forall_mem_map]

theorem passes_or_begins (r : Reading) (token : Token) :
    Passes P D r token ∨
      (∀ limits, advance limits r token = beginValue limits r.stack token) ∧
        (r.Fits P D ↔ StackFits P D r.stack) := by
  obtain ⟨stack, expect⟩ := r
  cases expect with
  | value => exact .inr ⟨fun _ => rfl, .rfl⟩
  | item =>
      cases token with
      | closeList =>
          cases stack with
          | nil => exact .inr ⟨fun _ => rfl, .rfl⟩
          | cons frame rest =>
              cases frame with
              | list items =>
                  refine .inl ⟨fun _ => rfl, fun r' h => ?_⟩
                  cases h
                  exact ⟨by simp, deliver_list_fits⟩
              | object entries key => exact .inr ⟨fun _ => rfl, .rfl⟩
      | _ => exact .inr ⟨fun _ => rfl, .rfl⟩
  | firstKey entries =>
      refine .inl ⟨fun _ => rfl, fun r' h => ?_⟩
      cases token with
      | closeObject =>
          cases h
          exact ⟨by simp, deliver_object_fits⟩
      | text key =>
          cases h
          exact ⟨by simp, .rfl⟩
      | _ => cases h
  | key entries =>
      refine .inl ⟨fun _ => rfl, fun r' h => ?_⟩
      cases token with
      | text key =>
          cases h
          exact ⟨by simp, .rfl⟩
      | _ => cases h
  | colon =>
      refine .inl ⟨fun _ => rfl, fun r' h => ?_⟩
      cases token with
      | colon =>
          cases h
          exact ⟨by simp, .rfl⟩
      | _ => cases h
  | more =>
      refine .inl ⟨fun _ => rfl, fun r' h => ?_⟩
      cases stack with
      | nil => cases token <;> cases h
      | cons frame rest =>
          cases frame with
          | list items =>
              cases token with
              | comma =>
                  cases h
                  exact ⟨by simp, .rfl⟩
              | closeList =>
                  cases h
                  exact ⟨by simp, deliver_list_fits⟩
              | _ => cases h
          | object entries key =>
              cases token with
              | comma =>
                  cases h
                  exact ⟨by simp, .rfl⟩
              | closeObject =>
                  cases h
                  exact ⟨by simp, deliver_object_fits⟩
              | _ => cases h
  | nothing v => exact .inl ⟨fun _ => rfl, fun r' h => by cases h⟩

/-- A step within limits is a step without any after which the limits are kept. -/
theorem advance_fits (depth : limits.depth = some D) (scalar : ∀ v, token = .scalar v → v.IsScalar) :
    (advance limits r token = some r' ∧ r.Fits P D ∧ ∀ v, token = .scalar v → P v) ↔
      advance .none r token = some r' ∧ r'.Fits P D := by
  obtain ⟨same, passes⟩ | ⟨begins, fits⟩ := passes_or_begins (P := P) (D := D) r token
  · rw [same]
    constructor
    · rintro ⟨taken, fits, -⟩
      exact ⟨taken, (passes r' taken).2.mpr fits⟩
    · rintro ⟨taken, fits⟩
      exact ⟨taken, (passes r' taken).2.mp fits, fun v h => absurd h ((passes r' taken).1 v)⟩
  · rw [begins, begins, fits]
    exact beginValue_fits depth scalar

/-- Tokens are read within limits exactly when they are read without any and what is read keeps
the limits. -/
theorem readFrom_fits (depth : limits.depth = some D) {tokens : List Token}
    (scalar : ∀ v, .scalar v ∈ tokens → v.IsScalar) :
    (readFrom limits r tokens = some v ∧ r.Fits P D ∧ ∀ u, .scalar u ∈ tokens → P u) ↔
      readFrom .none r tokens = some v ∧ v.Fits P D 0 := by
  induction tokens generalizing r with
  | nil =>
      obtain ⟨stack, expect⟩ := r
      cases expect with
      | nothing w =>
          simp only [readFrom, Option.some.injEq, Reading.Fits]
          constructor
          · rintro ⟨rfl, fits, -⟩
            exact ⟨rfl, fits⟩
          · rintro ⟨rfl, fits⟩
            exact ⟨rfl, fits, fun u mem => absurd mem List.not_mem_nil⟩
      | _ => simp [readFrom]
  | cons token tokens ih =>
      have head : ∀ u, token = .scalar u → u.IsScalar := fun u h => scalar u (h ▸ List.mem_cons_self ..)
      have rest := fun r' => ih (r := r') fun u mem => scalar u (List.mem_cons_of_mem _ mem)
      rw [readFrom, readFrom]
      constructor
      · rintro ⟨taken, fits, holds⟩
        cases next : advance limits r token with
        | none => simp [next] at taken
        | some r' =>
            rw [next] at taken
            have moved := (advance_fits (P := P) depth head).mp
              ⟨next, fits, fun u h => holds u (h ▸ List.mem_cons_self ..)⟩
            rw [moved.1]
            exact (rest r').mp ⟨taken, moved.2, fun u mem => holds u (List.mem_cons_of_mem _ mem)⟩
      · rintro ⟨taken, fits⟩
        cases next : advance .none r token with
        | none => simp [next] at taken
        | some r' =>
            rw [next] at taken
            obtain ⟨read, fits', holds⟩ := (rest r').mpr ⟨taken, fits⟩
            obtain ⟨moved, before, first⟩ := (advance_fits (P := P) depth head).mpr ⟨next, fits'⟩
            rw [moved]
            refine ⟨read, before, fun u mem => ?_⟩
            obtain same | mem := List.mem_cons.mp mem
            · exact first u same.symm
            · exact holds u mem

/-! ## Keys -/

theorem mem_of_lookup {key : String} {entries : List (String × Json)} (h : lookup key entries = some v) :
    (key, v) ∈ entries := by
  induction entries with
  | nil => cases h
  | cons e entries ih =>
      obtain ⟨k, w⟩ := e
      rw [lookup] at h
      split at h
      · next u found =>
          cases h
          exact List.mem_cons_of_mem _ (ih found)
      · obtain ⟨rfl, same⟩ := Option.ite_none_right_eq_some.mp h
        cases same
        exact List.mem_cons_self ..

theorem lookup_of_mem {key : String} {entries : List (String × Json)}
    (distinct : (entries.map Prod.fst).Nodup) (mem : (key, v) ∈ entries) :
    lookup key entries = some v := by
  induction entries with
  | nil => cases mem
  | cons e entries ih =>
      obtain ⟨k, w⟩ := e
      obtain ⟨fresh, distinct⟩ := List.nodup_cons.mp distinct
      rw [lookup]
      obtain same | mem := List.mem_cons.mp mem
      · cases same
        have absent : lookup key entries = none := by
          cases found : lookup key entries with
          | none => rfl
          | some u => exact absurd (List.mem_map_of_mem (mem_of_lookup found)) fresh
        rw [absent]
        exact if_pos rfl
      · rw [ih distinct mem]

/-- No object has two values for a key. -/
inductive Distinct : Json → Prop where
  | scalar {v : Json} (scalar : v.IsScalar) : Distinct v
  | text (s : String) : Distinct (.text s)
  | list {items : List Json} (each : ∀ v ∈ items, Distinct v) : Distinct (.list items)
  | object {entries : List (String × Json)} (keys : (entries.map Prod.fst).Nodup)
      (each : ∀ e ∈ entries, Distinct e.2) : Distinct (.object entries)

/-! ## Texts -/

variable {text : String}

/-- No integer of more than `k` digits. -/
def Short (k : Nat) (v : Json) : Prop := ∀ n, v = .int n → n.natAbs < 10 ^ k

theorem Fits.short {k : Nat} (h : v.Fits (Short k) D d) : v.Short k := by
  cases h with
  | scalar _ _ short => exact short
  | _ => exact fun n same => by cases same

/-- Without limits the value is the same; it keeps the limits. -/
theorem read?_none_of_limited {k : Nat} (h : read? ⟨some D, some k⟩ text = some v) :
    read? .none text = some v ∧ v.Fits (Short k) D 0 := by
  rw [read?] at h
  split at h
  · cases h
  · next tokens scanned =>
      have source {u : Json} (mem : .scalar u ∈ tokens) : Source (some k) u :=
        source_of_scanFrom formed_between scanned mem
      have unlimited : tokens? none text.toList = some tokens :=
        scanFrom_of_read formed_between scanned fun u _ => read_none _ u
      have depth : (Limits.mk (some D) (some k)).depth = some D := rfl
      have fits := (readFrom_fits (P := Short k) depth
        fun u mem => (source mem).scalar).mp ⟨h, trivial, fun u mem n same => (same ▸ source mem).lt⟩
      rw [read?, show Limits.none.digits = none from rfl, unlimited]
      exact fits

/-- A text whose value keeps the limits is read within them. -/
theorem read?_limited {k : Nat} (two : 2 ≤ k) (h : read? .none text = some v)
    (fits : v.Fits (Modest k) D 0) : read? ⟨some D, some k⟩ text = some v := by
  rw [read?] at h
  split at h
  · cases h
  · next tokens scanned =>
      have scalar {u : Json} (mem : .scalar u ∈ tokens) : u.IsScalar :=
        (source_of_scanFrom formed_between scanned mem).scalar
      have depth : (Limits.mk (some D) (some k)).depth = some D := rfl
      obtain ⟨read, -, modest⟩ := (readFrom_fits depth
        fun u mem => scalar mem).mpr ⟨h, fits⟩
      have limited : tokens? (some k) text.toList = some tokens :=
        scanFrom_of_read formed_between scanned fun u mem => (modest u mem).read two
      rw [read?, limited]
      exact read

/-! ## Values that are the same -/

/-- The same value: objects are compared by what their keys lead to. -/
inductive Same : Json → Json → Prop where
  | null : Same .null .null
  | bool (b : Bool) : Same (.bool b) (.bool b)
  | int (n : Int) : Same (.int n) (.int n)
  | float (x : Double) : Same (.float x) (.float x)
  | text (s : String) : Same (.text s) (.text s)
  | list {items items' : List Json} (each : List.Forall₂ Same items items') :
      Same (.list items) (.list items')
  | object {entries entries' : List (String × Json)}
      (each : ∀ key, Option.Rel Same (lookup key entries) (lookup key entries')) :
      Same (.object entries) (.object entries')

theorem same_refl : (v : Json) → v.Same v
  | .null => .null
  | .bool b => .bool b
  | .int n => .int n
  | .float x => .float x
  | .text s => .text s
  | .list items => .list (List.forall₂_same.mpr fun v hv => same_refl v)
  | .object entries => .object fun key => by
      cases found : lookup key entries with
      | none => exact .none
      | some v => exact .some (same_refl v)
termination_by v => sizeOf v
decreasing_by
  · have := List.sizeOf_lt_of_mem hv
    simp
    omega
  · have := List.sizeOf_lt_of_mem (mem_of_lookup found)
    simp at this ⊢
    omega

/-- Objects with the same keys that lead to the same. -/
abbrev SameEntries (entries entries' : List (String × Json)) : Prop :=
  ∀ key, Option.Rel Same (lookup key entries) (lookup key entries')

theorem SameEntries.found {entries entries' : List (String × Json)} (h : SameEntries entries entries')
    (key : String) :
    (lookup key entries = none ∧ lookup key entries' = none) ∨
      ∃ v w, lookup key entries = some v ∧ lookup key entries' = some w ∧ v.Same w := by
  have same := h key
  cases found : lookup key entries <;> cases found' : lookup key entries' <;> rw [found, found'] at same
  · exact .inl ⟨rfl, rfl⟩
  · cases same
  · cases same
  · cases same with
    | some same => exact .inr ⟨_, _, rfl, rfl, same⟩

theorem exists_same {items items' : List Json} (each : List.Forall₂ Same items items') {v : Json}
    (hv : v ∈ items) : ∃ w ∈ items', v.Same w := by
  induction each with
  | nil => cases hv
  | cons same _ ih =>
      obtain rfl | hv := List.mem_cons.mp hv
      · exact ⟨_, List.mem_cons_self .., same⟩
      · obtain ⟨w, hw, same⟩ := ih hv
        exact ⟨w, List.mem_cons_of_mem _ hw, same⟩

theorem Fits.of_same {P : Json → Prop} {D d : Nat} {v w : Json} (h : w.Fits P D d) (same : v.Same w)
    (distinct : v.Distinct) : v.Fits P D d := by
  induction h generalizing v with
  | scalar depth scalar holds =>
      cases same with
      | list => cases scalar
      | object => cases scalar
      | text => cases scalar
      | _ => exact .scalar depth scalar holds
  | text depth =>
      cases same
      exact .text depth
  | list depth _ ih =>
      cases same with
      | list each =>
          cases distinct with
          | scalar scalar => cases scalar
          | list distinct =>
              refine .list depth fun x hx => ?_
              obtain ⟨y, hy, same⟩ := exists_same each hx
              exact ih y hy same (distinct x hx)
  | object depth _ ih =>
      cases same with
      | object each =>
          cases distinct with
          | scalar scalar => cases scalar
          | object keys distinct =>
              refine .object depth fun e he => ?_
              obtain ⟨absent, -⟩ | ⟨x, y, found, found', same⟩ := SameEntries.found each e.1
              · rw [lookup_of_mem keys he] at absent
                cases absent
              · rw [lookup_of_mem keys he] at found
                cases found
                exact ih _ (mem_of_lookup found') same (distinct e he)

end NinjaFile.Json
