import Mathlib.Algebra.Ring.Int.Defs
import Mathlib.Algebra.Ring.Nat
import Mathlib.Data.List.TakeWhile
import NinjaFile.Json.Token

/-!
# Scanning

A character starts something, goes on with something, or ends something; a value that is no text
comes from a word or from a number.  A limit on the length of numbers is a limit on the integers
that are read: a number is not written with more characters than it needs.
-/

namespace NinjaFile

namespace Double

/-! ## Decimal digits -/

theorem foldl_digits (n : Nat) (digits : List Char) :
    digits.foldl (fun n c => n * 10 + (c.toNat - 48)) n = n * 10 ^ digits.length + digitsValue digits := by
  induction digits generalizing n with
  | nil => simp [digitsValue]
  | cons c digits ih =>
      rw [digitsValue, List.foldl_cons, List.foldl_cons, ih, ih (0 * 10 + _), List.length_cons,
        Nat.pow_succ, Nat.add_mul, Nat.mul_assoc n, Nat.mul_comm 10, Nat.zero_mul, Nat.zero_add,
        Nat.add_assoc]

theorem digitsValue_cons (c : Char) (digits : List Char) :
    digitsValue (c :: digits) = (c.toNat - 48) * 10 ^ digits.length + digitsValue digits := by
  rw [digitsValue, List.foldl_cons, foldl_digits, Nat.zero_mul, Nat.zero_add]

theorem isDigit_iff (c : Char) : isDigit c = true ↔ 48 ≤ c.toNat ∧ c.toNat ≤ 57 := by
  simp only [isDigit, Bool.and_eq_true, decide_eq_true_eq]
  rfl

theorem digitsValue_lt {digits : List Char} (all : ∀ c ∈ digits, isDigit c = true) :
    digitsValue digits < 10 ^ digits.length := by
  induction digits with
  | nil => simp [digitsValue]
  | cons c digits ih =>
      have rest := ih fun d hd => all d (List.mem_cons_of_mem _ hd)
      have digit := (isDigit_iff c).mp (all c (List.mem_cons_self ..))
      have most : (c.toNat - 48) * 10 ^ digits.length ≤ 9 * 10 ^ digits.length :=
        Nat.mul_le_mul_right _ (by omega)
      rw [digitsValue_cons, List.length_cons, Nat.pow_succ]
      omega

theorem le_digitsValue {c : Char} (digit : isDigit c = true) (nonzero : c ≠ '0') (digits : List Char) :
    10 ^ digits.length ≤ digitsValue (c :: digits) := by
  have positive : 1 ≤ c.toNat - 48 := by
    have differs : c.toNat ≠ 48 := fun h => nonzero (Char.toNat_inj.mp h)
    have := (isDigit_iff c).mp digit
    omega
  have least := Nat.mul_le_mul_right (10 ^ digits.length) positive
  rw [digitsValue_cons]
  omega

end Double

namespace Json

/-- Neither a text nor a value. -/
def Token.IsMark : Token → Prop
  | .text _ | .scalar _ => False
  | _ => True

/-- A value that is written as a word. -/
def IsWord : Json → Prop
  | .null | .bool _ | .float _ => True
  | _ => False

/-- In the middle of a text. -/
def Scan.Quoting : Scan → Prop
  | .text _ | .escape _ | .code .. | .pairSlash .. | .pairLetter .. => True
  | _ => False

/-- What a character starts where nothing has been started. -/
inductive Begins (c : Char) : Scan → List Token → Prop where
  | blank (blank : isBlank c = true) : Begins c .between []
  | mark {token : Token} (mark : token.IsMark) : Begins c .between [token]
  | text : Begins c (.text []) []
  | minus (minus : c = '-') : Begins c (.number .minus [c]) []
  | digit {phase : Phase} (first : Phase.minus.next? c = some phase) : Begins c (.number phase [c]) []
  | word {left : List Char} {v : Json} (letters : ∀ d ∈ left, isBlank d = false) (word : v.IsWord) :
      Begins c (.word left v) []

/-- What a character does to a scan. -/
inductive Goes (limit : DigitLimit) (c : Char) : Scan → Scan → List Token → Prop where
  | start {scan : Scan} {tokens : List Token} (begins : Begins c scan tokens) :
      Goes limit c .between scan tokens
  | letter {d : Char} {left : List Char} {v : Json} :
      Goes limit c (.word (c :: d :: left) v) (.word (d :: left) v) []
  | word {v : Json} : Goes limit c (.word [c] v) .between [.scalar v]
  | figure {phase phase' : Phase} {read : List Char} (next : phase.next? c = some phase') :
      Goes limit c (.number phase read) (.number phase' (c :: read)) []
  | number {phase : Phase} {read : List Char} {v : Json} {scan : Scan} {tokens : List Token}
      (complete : phase.isComplete = true) (value : number? limit phase read.reverse = some v)
      (begins : Begins c scan tokens) : Goes limit c (.number phase read) scan (.scalar v :: tokens)
  | infinity {read left : List Char} {v : Json} (letters : ∀ d ∈ left, isBlank d = false)
      (word : v.IsWord) : Goes limit c (.number .minus read) (.word left v) []
  | quoted {scan scan' : Scan} (quoting : scan.Quoting) (quoting' : scan'.Quoting) : Goes limit c scan scan' []
  | text {read : List Char} :
      Goes limit c (.text read) .between [.text (String.ofList read.reverse)]

variable {limit : DigitLimit} {scan scan' : Scan} {c : Char} {tokens : List Token}

theorem begins_of_start (h : start c = some (scan, tokens)) : Begins c scan tokens := by
  unfold start at h
  split at h
  · next blank =>
      cases h
      exact .blank blank
  · split at h
    case h_7 =>
      cases h
      exact .text
    case h_8 =>
      cases h
      exact .minus rfl
    case h_14 =>
      obtain ⟨phase, first, same⟩ := Option.map_eq_some_iff.mp h
      cases same
      exact .digit first
    all_goals cases h
    all_goals first | exact .mark trivial | exact .word (by simp [isBlank]) trivial

theorem quoting_of_endCode {high : Option Nat} {code : Nat} {read : List Char}
    (h : endCode high code read = some scan) : scan.Quoting := by
  cases high with
  | none =>
      simp only [endCode] at h
      split at h
      · cases h
        trivial
      · split at h <;> cases h
        trivial
  | some high =>
      simp only [endCode] at h
      split at h <;> cases h
      trivial

theorem goes_of_step (h : step limit scan c = some (scan', tokens)) : Goes limit c scan scan' tokens := by
  cases scan with
  | between => exact .start (begins_of_start h)
  | word left v =>
      cases left with
      | nil => cases h
      | cons next left =>
          cases left with
          | nil =>
              simp only [step, Option.ite_none_right_eq_some] at h
              obtain ⟨rfl, same⟩ := h
              cases same
              exact .word
          | cons second left =>
              simp only [step, Option.ite_none_right_eq_some] at h
              obtain ⟨rfl, same⟩ := h
              cases same
              exact .letter
  | number phase read =>
      simp only [step] at h
      split at h
      · next next =>
          cases h
          exact .figure next
      · split at h
        · next complete =>
            split at h
            · cases h
            · next v value =>
                obtain ⟨⟨scan, tokens⟩, begun, same⟩ := Option.map_eq_some_iff.mp h
                cases same
                exact .number complete value (begins_of_start begun)
        · simp only [Option.ite_none_right_eq_some] at h
          obtain ⟨⟨rfl, -⟩, same⟩ := h
          cases same
          exact .infinity (by simp [isBlank]) trivial
  | text read =>
      simp only [step] at h
      split at h
      · cases h
        exact .text
      · split at h
        · cases h
          exact .quoted trivial trivial
        · split at h <;> cases h
          exact .quoted trivial trivial
  | escape read =>
      simp only [step] at h
      split at h
      · cases h
        exact .quoted trivial trivial
      · obtain ⟨d, -, same⟩ := Option.map_eq_some_iff.mp h
        cases same
        exact .quoted trivial trivial
  | code high left value read =>
      simp only [step] at h
      split at h
      · cases h
      · split at h
        · obtain ⟨scan, ended, same⟩ := Option.map_eq_some_iff.mp h
          cases same
          exact .quoted trivial (quoting_of_endCode ended)
        · cases h
          exact .quoted trivial trivial
  | pairSlash high read =>
      simp only [step, Option.ite_none_right_eq_some] at h
      cases h.2
      exact .quoted trivial trivial
  | pairLetter high read =>
      simp only [step, Option.ite_none_right_eq_some] at h
      cases h.2
      exact .quoted trivial trivial

/-! ## Numbers as they are written -/

/-- Digits with a minus in front, or without. -/
def signed (negative : Bool) (digits : List Char) : List Char :=
  if negative then '-' :: digits else digits

theorem signed_append (negative : Bool) (digits more : List Char) :
    signed negative digits ++ more = signed negative (digits ++ more) := by
  cases negative <;> rfl

/-- What is written when a number has been read so far: its whole part has no zeros in front. -/
inductive Phase.Forms : Phase → List Char → Prop where
  | minus : Forms .minus ['-']
  | zero (negative : Bool) : Forms .zero (signed negative ['0'])
  | whole (negative : Bool) {c : Char} {digits : List Char} (first : Double.isDigit c = true)
      (nonzero : c ≠ '0') (rest : ∀ d ∈ digits, Double.isDigit d = true) :
      Forms .whole (signed negative (c :: digits))
  | beyond {phase : Phase} {text : List Char} (minus : phase ≠ .minus)
      (whole : phase.isWhole = false) : Forms phase text

theorem Phase.forms_first {phase : Phase} {c : Char} (negative : Bool)
    (h : Phase.minus.next? c = some phase) : phase.Forms (signed negative [c]) := by
  simp only [next?] at h
  split at h
  · next zero =>
      subst zero
      cases h
      exact .zero negative
  · next nonzero =>
      obtain ⟨digit, same⟩ := Option.ite_none_right_eq_some.mp h
      cases same
      exact .whole negative digit nonzero nofun

theorem Phase.next?_cases {phase phase' : Phase} {c : Char} (h : phase.next? c = some phase') :
    phase = .minus ∨ (phase = .whole ∧ Double.isDigit c = true ∧ phase' = .whole) ∨
      (phase' ≠ .minus ∧ phase'.isWhole = false) := by
  cases phase with
  | minus => exact .inl rfl
  | whole =>
      simp only [next?] at h
      split at h
      · next digit =>
          cases h
          exact .inr (.inl ⟨rfl, digit, rfl⟩)
      · repeat' split at h
        all_goals cases h
        all_goals exact .inr (.inr ⟨nofun, rfl⟩)
  | _ =>
      simp only [next?] at h
      repeat' split at h
      all_goals cases h
      all_goals exact .inr (.inr ⟨nofun, rfl⟩)

theorem Phase.Forms.next {phase phase' : Phase} {text : List Char} {c : Char}
    (h : phase.Forms text) (next : phase.next? c = some phase') : phase'.Forms (text ++ [c]) := by
  obtain rfl | ⟨rfl, digit, rfl⟩ | ⟨minus, whole⟩ := next?_cases next
  · cases h with
    | minus => exact forms_first true next
    | beyond minus => exact absurd rfl minus
  · cases h with
    | whole negative first nonzero rest =>
        rw [signed_append]
        refine .whole negative first nonzero fun d hd => ?_
        obtain hd | hd := List.mem_append.mp hd
        · exact rest d hd
        · rwa [List.mem_singleton.mp hd]
    | beyond _ whole => cases whole
  · exact .beyond minus whole

/-! ## What is in the middle of being read -/

/-- What has been read is the start of what is written. -/
def Scan.Formed : Scan → Prop
  | .word _ v => v.IsWord
  | .number phase read => phase.Forms read.reverse
  | _ => True

theorem formed_between : Scan.between.Formed := trivial

theorem Scan.Quoting.formed (h : scan.Quoting) : scan.Formed := by
  cases scan <;> trivial

theorem Begins.formed (h : Begins c scan tokens) : scan.Formed := by
  cases h with
  | minus minus =>
      subst minus
      exact .minus
  | digit first => exact Phase.forms_first false first
  | word _ word => exact word
  | _ => trivial

theorem Scan.Formed.goes (formed : scan.Formed) (h : Goes limit c scan scan' tokens) :
    scan'.Formed := by
  cases h with
  | start begins => exact begins.formed
  | letter => exact formed
  | figure next =>
      rw [Scan.Formed, List.reverse_cons]
      exact Phase.Forms.next formed next
  | number _ _ begins => exact begins.formed
  | infinity _ word => exact word
  | quoted _ quoting => exact quoting.formed
  | _ => trivial

/-! ## Values that are no texts -/

/-- No text and no container. -/
def IsScalar : Json → Prop
  | .null | .bool _ | .int _ | .float _ => True
  | _ => False

/-- Where a value comes from that is no text. -/
def Source (limit : DigitLimit) (v : Json) : Prop :=
  v.IsWord ∨ ∃ phase text, Phase.Forms phase text ∧ phase.isComplete = true ∧ number? limit phase text = some v

theorem Begins.scalar {v : Json} (h : Begins c scan tokens) (mem : .scalar v ∈ tokens) : False := by
  cases h with
  | mark mark =>
      rw [List.mem_singleton] at mem
      subst mem
      exact mark
  | _ => cases mem

theorem Scan.Formed.source {v : Json} (formed : scan.Formed) (h : Goes limit c scan scan' tokens)
    (mem : .scalar v ∈ tokens) : Source limit v := by
  cases h with
  | start begins => exact (begins.scalar mem).elim
  | word =>
      obtain rfl : v = _ := by simpa using mem
      exact .inl formed
  | number complete value begins =>
      obtain same | mem := List.mem_cons.mp mem
      · cases same
        exact .inr ⟨_, _, formed, complete, value⟩
      · exact (begins.scalar mem).elim
  | text => simp at mem
  | _ => cases mem

theorem source_of_scanFrom {v : Json} {text : List Char} (formed : scan.Formed)
    (h : scanFrom limit scan text = some tokens) (mem : .scalar v ∈ tokens) : Source limit v := by
  induction text generalizing scan tokens with
  | nil =>
      cases scan with
      | between => cases h; cases mem
      | number phase read =>
          simp only [scanFrom, finish] at h
          split at h
          · next complete =>
              obtain ⟨w, value, same⟩ := Option.map_eq_some_iff.mp h
              cases same
              obtain rfl : v = w := by simpa using mem
              exact .inr ⟨phase, _, formed, complete, value⟩
          · cases h
      | _ => cases h
  | cons c text ih =>
      rw [scanFrom] at h
      split at h
      · cases h
      · next scan' front taken =>
          obtain ⟨back, read, same⟩ := Option.map_eq_some_iff.mp h
          cases same
          have goes := goes_of_step taken
          obtain mem | mem := List.mem_append.mp mem
          · exact formed.source goes mem
          · exact ih (formed.goes goes) read mem

section

variable {limit' : DigitLimit}

/-- A number that is read below one limit is read below another. -/
def Read (limit limit' : DigitLimit) (v : Json) : Prop :=
  ∀ phase text, Phase.Forms phase text → phase.isComplete = true →
    number? limit phase text = some v → number? limit' phase text = some v

theorem step_of_read (formed : scan.Formed) (h : step limit scan c = some (scan', tokens))
    (read : ∀ v, .scalar v ∈ tokens → Read limit limit' v) :
    step limit' scan c = some (scan', tokens) := by
  cases scan with
  | number phase text =>
      simp only [step] at h ⊢
      split at h
      · exact h
      · split at h
        · next complete =>
            rw [if_pos complete]
            split at h
            · cases h
            · next v value =>
                obtain ⟨begun, starts, same⟩ := Option.map_eq_some_iff.mp h
                cases same
                have value' := read v (List.mem_cons_self ..) phase _ formed complete value
                simp only [value', starts, Option.map_some]
        · next incomplete =>
            rw [if_neg incomplete]
            exact h
  | word left v =>
      cases left with
      | nil => exact h
      | cons next left => cases left <;> exact h
  | _ => exact h

theorem finish_of_read (formed : scan.Formed) (h : finish limit scan = some tokens)
    (read : ∀ v, .scalar v ∈ tokens → Read limit limit' v) : finish limit' scan = some tokens := by
  cases scan with
  | number phase text =>
      simp only [finish] at h ⊢
      split at h
      · next complete =>
          obtain ⟨v, value, same⟩ := Option.map_eq_some_iff.mp h
          cases same
          have value' := read v (List.mem_cons_self ..) phase _ formed complete value
          simp only [complete, value', Option.map_some, if_true]
      · cases h
  | _ => exact h

theorem scanFrom_of_read {text : List Char} (formed : scan.Formed)
    (h : scanFrom limit scan text = some tokens)
    (read : ∀ v, .scalar v ∈ tokens → Read limit limit' v) :
    scanFrom limit' scan text = some tokens := by
  induction text generalizing scan tokens with
  | nil => exact finish_of_read formed h read
  | cons c text ih =>
      rw [scanFrom] at h ⊢
      split at h
      · cases h
      · next scan' front taken =>
          obtain ⟨back, rest, same⟩ := Option.map_eq_some_iff.mp h
          cases same
          have front' := step_of_read formed taken fun v mem => read v (List.mem_append_left _ mem)
          have back' := ih (formed.goes (goes_of_step taken)) rest fun v mem =>
            read v (List.mem_append_right _ mem)
          simp only [front', back', Option.map_some]

end

/-! ## Limits -/

/-- A whole number is as large as its digits tell. -/
theorem Phase.Forms.digits {phase : Phase} {text : List Char} (h : phase.Forms text)
    (whole : phase.isWhole = true) :
    ∃ negative c digits, text = signed negative (c :: digits) ∧
      (∀ d ∈ c :: digits, Double.isDigit d = true) ∧
      (digits = [] ∨ 10 ^ digits.length ≤ Double.digitsValue (c :: digits)) := by
  cases h with
  | minus => cases whole
  | zero negative => exact ⟨negative, '0', [], rfl, by simp [Double.isDigit], .inl rfl⟩
  | whole negative first nonzero rest =>
      exact ⟨negative, _, _, rfl, List.forall_mem_cons.mpr ⟨first, rest⟩,
        .inr (Double.le_digitsValue first nonzero _)⟩
  | beyond _ not => rw [not] at whole; cases whole

theorem takeSign_signed (negative : Bool) {c : Char} (digits : List Char)
    (first : Double.isDigit c = true) :
    Double.takeSign (signed negative (c :: digits)) = (negative, c :: digits) := by
  cases negative with
  | true => rfl
  | false =>
      have range := (Double.isDigit_iff c).mp first
      rw [signed, if_neg nofun]
      unfold Double.takeSign
      split
      · next same =>
          obtain ⟨rfl, -⟩ := List.cons.inj same
          exact absurd range (by decide)
      · next same =>
          obtain ⟨rfl, -⟩ := List.cons.inj same
          exact absurd range (by decide)
      · rfl

theorem admits_signed (k : Nat) (negative : Bool) {digits : List Char}
    (all : ∀ d ∈ digits, Double.isDigit d = true) :
    DigitLimit.admits (some k) (signed negative digits) = true ↔ (signed negative digits).length ≤ k := by
  have taken : (signed negative digits).takeWhile (fun c => c = '-' ∨ Double.isDigit c) =
      signed negative digits := by
    refine List.takeWhile_eq_self_iff.mpr fun d hd => ?_
    cases negative with
    | true =>
        obtain rfl | hd := List.mem_cons.mp hd
        · rfl
        · simp [all d hd]
    | false => simp [all d hd]
  rw [DigitLimit.admits, taken, decide_eq_true_iff]

/-- The number that characters stand for. -/
def numberOf (phase : Phase) (text : List Char) : Json :=
  let (negative, digits) := Double.takeSign text
  if phase.isWhole then
    .int (if negative then -(Double.digitsValue digits : Int) else Double.digitsValue digits)
  else .float ((Double.ofDigits? negative digits).getD .nan)

theorem number?_eq_some {phase : Phase} {text : List Char} {v : Json} :
    number? limit phase text = some v ↔ limit.admits text = true ∧ numberOf phase text = v := by
  rw [number?, numberOf]
  cases limit.admits text with
  | false => simp
  | true => cases phase.isWhole <;> simp

theorem numberOf_signed {phase : Phase} (whole : phase.isWhole = true) (negative : Bool) {c : Char}
    (digits : List Char) (first : Double.isDigit c = true) :
    numberOf phase (signed negative (c :: digits)) =
      .int (if negative then -(Double.digitsValue (c :: digits) : Int)
        else Double.digitsValue (c :: digits)) := by
  simp only [numberOf, takeSign_signed negative digits first, whole, if_true]

theorem numberOf_places {phase : Phase} (places : phase.isWhole = false) (text : List Char) :
    ∃ x, numberOf phase text = .float x := by
  rw [numberOf, places]
  exact ⟨_, rfl⟩

theorem read_none (limit : DigitLimit) (v : Json) : Read limit none v := fun _ _ _ _ h =>
  number?_eq_some.mpr ⟨rfl, (number?_eq_some.mp h).2⟩

theorem Source.scalar {v : Json} (h : Source limit v) : v.IsScalar := by
  obtain word | ⟨phase, text, -, -, value⟩ := h
  · cases v <;> trivial
  · obtain ⟨-, rfl⟩ := number?_eq_some.mp value
    rw [numberOf]
    cases phase.isWhole <;> trivial

/-- An integer that is read has no more digits than the limit allows. -/
theorem Source.lt {k : Nat} {n : Int} (h : Source (some k) (.int n)) : n.natAbs < 10 ^ k := by
  obtain word | ⟨phase, text, forms, -, value⟩ := h
  · exact word.elim
  obtain ⟨admitted, value⟩ := number?_eq_some.mp value
  cases whole : phase.isWhole with
  | true =>
      obtain ⟨negative, c, digits, rfl, all, -⟩ := forms.digits whole
      rw [numberOf_signed whole negative digits (all c (List.mem_cons_self ..))] at value
      have short := (admits_signed k negative all).mp admitted
      have small : Double.digitsValue (c :: digits) < 10 ^ k := by
        refine Nat.lt_of_lt_of_le (Double.digitsValue_lt all) (Nat.pow_le_pow_right (by decide) ?_)
        cases negative with
        | true => exact Nat.le_of_succ_le short
        | false => exact short
      obtain rfl := Json.int.inj value
      split <;> simpa using small
  | false =>
      obtain ⟨x, float⟩ := numberOf_places whole text
      rw [float] at value
      cases value

/-- No fraction, and no integer that is negative or needs more than `k` digits. -/
def Modest (k : Nat) : Json → Prop
  | .int n => 0 ≤ n ∧ n < 10 ^ k
  | .float _ => False
  | _ => True

theorem modest_nat {k n : Nat} (h : n < 10 ^ k) : (Json.int n).Modest k :=
  ⟨Int.natCast_nonneg n, by exact_mod_cast h⟩

theorem Modest.read {k : Nat} (two : 2 ≤ k) {v : Json} (modest : v.Modest k) :
    Read none (some k) v := by
  intro phase text forms _ value
  obtain ⟨-, rfl⟩ := number?_eq_some.mp value
  refine number?_eq_some.mpr ⟨?_, rfl⟩
  cases whole : phase.isWhole with
  | true =>
      obtain ⟨negative, c, digits, rfl, all, large⟩ := forms.digits whole
      rw [numberOf_signed whole negative digits (all c (List.mem_cons_self ..))] at modest
      obtain ⟨least, most⟩ := modest
      refine (admits_signed k negative all).mpr ?_
      obtain rfl | large := large
      · cases negative with
        | true => exact two
        | false => exact Nat.le_of_succ_le two
      · cases negative with
        | true =>
            -- The only integer with a minus that is not negative is zero.
            have zero : Double.digitsValue (c :: digits) = 0 := by
              rw [if_pos rfl] at least
              omega
            rw [zero] at large
            exact absurd large (Nat.not_le.mpr (Nat.pow_pos (by decide)))
        | false =>
            rw [if_neg nofun] at most
            have room : 10 ^ digits.length < 10 ^ k := Nat.lt_of_le_of_lt large (by exact_mod_cast most)
            exact (Nat.pow_lt_pow_iff_right (by decide)).mp room
  | false =>
      obtain ⟨x, float⟩ := numberOf_places whole text
      rw [float] at modest
      exact modest.elim

end Json

end NinjaFile
