import Mathlib.Algebra.Ring.Nat
import Mathlib.Order.Bounds.Defs
import NinjaFile.Text.Utf8

/-!
# Reading what has been encoded

A character is read back from its bytes, whatever stands behind them, and so is a text.  Nothing
else is read: the bytes of a character that has been read are those that it is written with, so a
text is read exactly from its encoding.  Where reading stops, what lies in front of the fault is
the longest beginning that is an encoding.
-/

namespace NinjaFile.Text.Utf8

theorem toNat_tailByte (n : Nat) : (tailByte n).toNat = 0x80 + n % 64 := by
  have small : 0x80 + n % 64 < 256 := by omega
  simp [tailByte, Nat.toUInt8, Nat.mod_eq_of_lt small]

theorem toNat_toUInt8 {n : Nat} (small : n < 256) : n.toUInt8.toNat = n := by
  simp [Nat.toUInt8, Nat.mod_eq_of_lt small]

/-- The last bytes of a number, six bits each. -/
def tails : Nat → Nat → List UInt8
  | 0, _ => []
  | owed + 1, n => tailByte (n / 64 ^ owed) :: tails owed n

theorem readTail_tails (n : Nat) (rest : List UInt8) (owed : Nat) {least greatest : UInt8}
    (fits : ∀ m, owed = m + 1 → least ≤ tailByte (n / 64 ^ m) ∧ tailByte (n / 64 ^ m) ≤ greatest) :
    readTail owed least greatest (n / 64 ^ owed) (tails owed n ++ rest) = .done n rest := by
  induction owed generalizing least greatest with
  | zero => simp [readTail, tails]
  | succ owed ih =>
      have code : n / 64 ^ (owed + 1) * 64 + ((tailByte (n / 64 ^ owed)).toNat - 0x80) = n / 64 ^ owed := by
        rw [toNat_tailByte, Nat.pow_succ, ← Nat.div_div_eq_div_mul]
        omega
      have next : ∀ m, owed = m + 1 →
          0x80 ≤ tailByte (n / 64 ^ m) ∧ tailByte (n / 64 ^ m) ≤ 0xBF := fun m _ => by
        simp only [UInt8.le_iff_toNat_le, toNat_tailByte, UInt8.reduceToNat]
        omega
      simp only [tails, List.cons_append, readTail, if_pos (fits owed rfl), code, ih next]

theorem lead?_eq (b : UInt8) :
    lead? b =
      if b.toNat < 0xC2 then none
      else if b.toNat < 0xE0 then some ⟨1, 0x80, 0xBF, b.toNat - 0xC0⟩
      else if b.toNat = 0xE0 then some ⟨2, 0xA0, 0xBF, 0⟩
      else if b.toNat = 0xED then some ⟨2, 0x80, 0x9F, 0xD⟩
      else if b.toNat < 0xF0 then some ⟨2, 0x80, 0xBF, b.toNat - 0xE0⟩
      else if b.toNat = 0xF0 then some ⟨3, 0x90, 0xBF, 0⟩
      else if b.toNat < 0xF4 then some ⟨3, 0x80, 0xBF, b.toNat - 0xF0⟩
      else if b.toNat = 0xF4 then some ⟨3, 0x80, 0x8F, 4⟩
      else none := by
  simp only [lead?, UInt8.lt_iff_toNat_lt, ← UInt8.toNat_inj]
  rfl

/-- A start byte asks for the bytes of a number: the bits it gives itself and the bounds of the
byte behind it are those of the number. -/
def Leads (b : UInt8) (owed n : Nat) : Prop :=
  ∃ least greatest, lead? b = some ⟨owed, least, greatest, n / 64 ^ owed⟩ ∧
    ∀ m, owed = m + 1 → least ≤ tailByte (n / 64 ^ m) ∧ tailByte (n / 64 ^ m) ≤ greatest

theorem leads {b : UInt8} (owed : Nat) {n : Nat} {least greatest : UInt8}
    (asks : lead? b = some ⟨owed + 1, least, greatest, n / 64 ^ (owed + 1)⟩)
    (low : least.toNat ≤ 0x80 + n / 64 ^ owed % 64) (high : 0x80 + n / 64 ^ owed % 64 ≤ greatest.toNat) :
    Leads b (owed + 1) n := by
  refine ⟨least, greatest, asks, fun m hm => ?_⟩
  obtain rfl : owed = m := by omega
  rw [UInt8.le_iff_toNat_le, UInt8.le_iff_toNat_le, toNat_tailByte]
  exact ⟨low, high⟩

theorem leads_two {n : Nat} (low : 0x80 ≤ n) (high : n < 0x800) :
    Leads (0xC0 + n / 64).toUInt8 1 n := by
  have b := lead?_eq (0xC0 + n / 64).toUInt8
  rw [toNat_toUInt8 (by omega), if_neg (by omega), if_pos (by omega), Nat.add_sub_cancel_left] at b
  refine leads 0 b ?_ ?_
  · simp
  · simp
    omega

theorem leads_three {n : Nat} (low : 0x800 ≤ n) (high : n < 0x10000)
    (scalar : n < 0xD800 ∨ 0xDFFF < n) : Leads (0xE0 + n / 4096).toUInt8 2 n := by
  have b := lead?_eq (0xE0 + n / 4096).toUInt8
  rw [toNat_toUInt8 (by omega), if_neg (by omega), if_neg (by omega)] at b
  by_cases first : n / 4096 = 0
  · rw [if_pos (by omega)] at b
    have bits : n / 64 ^ 2 = 0 := by omega
    refine leads 1 (by rw [b, ← bits]) ?_ ?_
    · simp
      omega
    · simp
      omega
  · rw [if_neg (by omega)] at b
    by_cases middle : n / 4096 = 0xD
    · rw [if_pos (by omega)] at b
      have bits : n / 64 ^ 2 = 0xD := by omega
      refine leads 1 (by rw [b, ← bits]) ?_ ?_
      · simp
      · simp
        omega
    · rw [if_neg (by omega), if_pos (by omega), Nat.add_sub_cancel_left] at b
      refine leads 1 b ?_ ?_
      · simp
      · simp
        omega

theorem leads_four {n : Nat} (low : 0x10000 ≤ n) (high : n < 0x110000) :
    Leads (0xF0 + n / 262144).toUInt8 3 n := by
  have b := lead?_eq (0xF0 + n / 262144).toUInt8
  rw [toNat_toUInt8 (by omega), if_neg (by omega), if_neg (by omega), if_neg (by omega),
    if_neg (by omega), if_neg (by omega)] at b
  by_cases first : n / 262144 = 0
  · rw [if_pos (by omega)] at b
    have bits : n / 64 ^ 3 = 0 := by omega
    refine leads 2 (by rw [b, ← bits]) ?_ ?_
    · simp
      omega
    · simp
      omega
  · rw [if_neg (by omega)] at b
    by_cases last : n / 262144 = 4
    · rw [if_neg (by omega), if_pos (by omega)] at b
      have bits : n / 64 ^ 3 = 4 := by omega
      refine leads 2 (by rw [b, ← bits]) ?_ ?_
      · simp
      · simp
        omega
    · rw [if_pos (by omega), Nat.add_sub_cancel_left] at b
      refine leads 2 b ?_ ?_
      · simp
      · simp
        omega

theorem step_of_leads {b : UInt8} {owed : Nat} {c : Char} (h : Leads b owed c.toNat)
    (rest : List UInt8) : step b (tails owed c.toNat ++ rest) = .char c (owed + 1) rest := by
  obtain ⟨least, greatest, asks, fits⟩ := h
  have high : ¬ b < 0x80 := fun low => by
    rw [lead?_eq, if_pos (Nat.lt_trans (UInt8.lt_iff_toNat_lt.mp low) (by decide))] at asks
    cases asks
  simp [step, high, asks, readTail_tails c.toNat rest owed fits]

theorem encodeChar_eq (c : Char) (large : 0x80 ≤ c.toNat) :
    ∃ b owed, encodeChar c = b :: tails owed c.toNat ∧ Leads b owed c.toNat := by
  have scalar : c.toNat < 0xD800 ∨ 0xDFFF < c.toNat ∧ c.toNat < 0x110000 := c.valid
  rw [encodeChar, if_neg (by omega)]
  split
  · next two => exact ⟨_, 1, by simp [tails], leads_two large two⟩
  · next more =>
      split
      · next three => exact ⟨_, 2, by simp [tails], leads_three (by omega) three (by omega)⟩
      · next four => exact ⟨_, 3, by simp [tails], leads_four (by omega) (by omega)⟩

theorem length_tails (owed n : Nat) : (tails owed n).length = owed := by
  induction owed with
  | zero => rfl
  | succ owed ih => simp [tails, ih]

theorem step_encodeChar (c : Char) (rest : List UInt8) :
    ∃ b bytes, encodeChar c = b :: bytes ∧
      step b (bytes ++ rest) = .char c (encodeChar c).length rest := by
  by_cases small : c.toNat < 0x80
  · have b := toNat_toUInt8 (n := c.toNat) (by omega)
    refine ⟨c.toNat.toUInt8, [], if_pos small, ?_⟩
    rw [step, if_pos (by rwa [UInt8.lt_iff_toNat_lt, b]), b, Char.ofNat_toNat, encodeChar, if_pos small]
    rfl
  · obtain ⟨b, owed, bytes, asks⟩ := encodeChar_eq c (by omega)
    refine ⟨b, _, bytes, ?_⟩
    rw [step_of_leads asks, bytes, List.length_cons, length_tails]

theorem decodeFrom_encode (position : Nat) (text : List Char) :
    decodeFrom position (text.flatMap encodeChar) = .ok text := by
  induction text generalizing position with
  | nil => simp [decodeFrom]
  | cons c text ih =>
      obtain ⟨b, bytes, encoded, read⟩ := step_encodeChar c (text.flatMap encodeChar)
      rw [List.flatMap_cons, encoded, List.cons_append, decodeFrom]
      split
      · next bad => simp [read] at bad
      · next d size rest char =>
          obtain ⟨rfl, rfl, rfl⟩ : c = d ∧ (encodeChar c).length = size ∧ text.flatMap encodeChar = rest := by
            simpa [read] using char
          rw [ih]

/-- A text is read back from its bytes. -/
theorem decode_encode (text : String) : decode (encode text) = .ok text := by
  rw [decode, encode, decodeFrom_encode]
  exact congrArg Except.ok String.ofList_toList

/-! ## Characters -/

/-- The continuation bytes of a number that has been read are its last ones, and the first of them
has kept the bounds. -/
theorem tails_of_readTail {owed : Nat} {least greatest : UInt8} {code n : Nat}
    {bytes rest : List UInt8} (low : 0x80 ≤ least.toNat) (high : greatest.toNat ≤ 0xBF)
    (h : readTail owed least greatest code bytes = .done n rest) :
    bytes = tails owed n ++ rest ∧ n / 64 ^ owed = code ∧
      ∀ m, owed = m + 1 → least.toNat ≤ 0x80 + n / 64 ^ m % 64 ∧
        0x80 + n / 64 ^ m % 64 ≤ greatest.toNat := by
  induction owed generalizing least greatest code bytes with
  | zero =>
      simp only [readTail, Tail.done.injEq] at h
      simp [tails, h]
  | succ owed ih =>
      cases bytes with
      | nil => simp [readTail] at h
      | cons b bytes =>
          simp only [readTail] at h
          split at h
          · next range =>
              simp only [UInt8.le_iff_toNat_le] at range
              split at h
              · next n' rest' tail =>
                  obtain ⟨rfl, rfl⟩ : n = n' ∧ rest = rest' := by simpa [eq_comm] using h
                  obtain ⟨rfl, front, -⟩ := ih (by simp) (by simp) tail
                  have byte : b = tailByte (n / 64 ^ owed) := by
                    rw [← UInt8.toNat_inj, toNat_tailByte]
                    omega
                  refine ⟨by simp [tails, ← byte], ?_, fun m hm => ?_⟩
                  · rw [Nat.pow_succ, ← Nat.div_div_eq_div_mul]
                    omega
                  · obtain rfl : owed = m := by omega
                    omega
              · cases h
          · cases h

theorem toUInt8_eq {n : Nat} {b : UInt8} (h : n = b.toNat) : n.toUInt8 = b := by
  subst h
  simp [Nat.toUInt8]

section

variable {b : UInt8} {n : Nat}

theorem toNat_ofNat (scalar : n < 0xD800 ∨ 0xDFFF < n ∧ n < 0x110000) : (Char.ofNat n).toNat = n := by
  rw [Char.ofNat, dif_pos scalar]
  rfl

theorem encodeChar_one (small : n < 0x80) (byte : n = b.toNat) : encodeChar (Char.ofNat n) = [b] := by
  rw [encodeChar, toNat_ofNat (by omega), if_pos small, toUInt8_eq byte]

theorem encodeChar_two (low : 0x80 ≤ n) (high : n < 0x800) (byte : 0xC0 + n / 64 = b.toNat) :
    encodeChar (Char.ofNat n) = b :: tails 1 n := by
  rw [encodeChar, toNat_ofNat (by omega), if_neg (by omega), if_pos high, toUInt8_eq byte]
  simp [tails]

theorem encodeChar_three (low : 0x800 ≤ n) (high : n < 0x10000) (scalar : n < 0xD800 ∨ 0xDFFF < n)
    (byte : 0xE0 + n / 4096 = b.toNat) : encodeChar (Char.ofNat n) = b :: tails 2 n := by
  rw [encodeChar, toNat_ofNat (by omega), if_neg (by omega), if_neg (by omega), if_pos high,
    toUInt8_eq byte]
  simp [tails]

theorem encodeChar_four (low : 0x10000 ≤ n) (high : n < 0x110000)
    (byte : 0xF0 + n / 262144 = b.toNat) : encodeChar (Char.ofNat n) = b :: tails 3 n := by
  rw [encodeChar, toNat_ofNat (by omega), if_neg (by omega), if_neg (by omega), if_neg (by omega),
    toUInt8_eq byte]
  simp [tails]

/-- A number whose first bits and whose first continuation byte are as the start byte has them is
that of a character with these bytes. -/
theorem encodeChar_of_lead {lead : Lead} (asks : lead? b = some lead)
    (front : n / 64 ^ lead.tails = lead.bits)
    (bounds : ∀ m, lead.tails = m + 1 → lead.least.toNat ≤ 0x80 + n / 64 ^ m % 64 ∧
      0x80 + n / 64 ^ m % 64 ≤ lead.greatest.toNat) :
    encodeChar (Char.ofNat n) = b :: tails lead.tails n := by
  have first := bounds (lead.tails - 1)
  have byte := b.toNat_lt
  rw [lead?_eq] at asks
  -- One case for each kind of start byte; the bounds keep out what a shorter form could write.
  split_ifs at asks <;> cases asks <;> simp at front first
  · exact encodeChar_two (by omega) (by omega) (by omega)
  · exact encodeChar_three (by omega) (by omega) (by omega) (by omega)
  · exact encodeChar_three (by omega) (by omega) (by omega) (by omega)
  · exact encodeChar_three (by omega) (by omega) (by omega) (by omega)
  · exact encodeChar_four (by omega) (by omega) (by omega)
  · exact encodeChar_four (by omega) (by omega) (by omega)
  · exact encodeChar_four (by omega) (by omega) (by omega)

end

theorem bounds_of_lead? {b : UInt8} {lead : Lead} (asks : lead? b = some lead) :
    0x80 ≤ lead.least.toNat ∧ lead.greatest.toNat ≤ 0xBF := by
  rw [lead?_eq] at asks
  split_ifs at asks <;> cases asks <;> simp

theorem encodeChar_of_step {b : UInt8} {bytes rest : List UInt8} {c : Char} {size : Nat}
    (h : step b bytes = .char c size rest) :
    b :: bytes = encodeChar c ++ rest ∧ size = (encodeChar c).length := by
  unfold step at h
  split at h
  · next small =>
      simp only [Step.char.injEq] at h
      obtain ⟨rfl, rfl, rfl⟩ := h
      simp [encodeChar_one (UInt8.lt_iff_toNat_lt.mp small) rfl]
  · split at h
    · cases h
    · next lead asks =>
        split at h
        · next code rest' tail =>
            simp only [Step.char.injEq] at h
            obtain ⟨rfl, rfl, rfl⟩ := h
            obtain ⟨low, high⟩ := bounds_of_lead? asks
            obtain ⟨rfl, front, bounds⟩ := tails_of_readTail low high tail
            simp [encodeChar_of_lead asks front bounds, length_tails]
        · cases h

/-! ## Texts -/

theorem decodeFrom_append (position : Nat) (text : List Char) (rest : List UInt8) :
    decodeFrom position (text.flatMap encodeChar ++ rest) =
      (decodeFrom (position + (text.flatMap encodeChar).length) rest).map (text ++ ·) := by
  induction text generalizing position with
  | nil => cases h : decodeFrom position rest <;> simp [h, Except.map]
  | cons c text ih =>
      obtain ⟨b, bytes, encoded, read⟩ := step_encodeChar c (text.flatMap encodeChar ++ rest)
      have first : decodeFrom position ((c :: text).flatMap encodeChar ++ rest) =
          (decodeFrom (position + (encodeChar c).length) (text.flatMap encodeChar ++ rest)).map (c :: ·) := by
        rw [List.flatMap_cons, encoded, List.append_assoc, List.cons_append, decodeFrom]
        split
        · next bad => simp [read] at bad
        · next d size after char =>
            obtain ⟨rfl, rfl, rfl⟩ :
                c = d ∧ (encodeChar c).length = size ∧ text.flatMap encodeChar ++ rest = after := by
              simpa [read] using char
            rw [encoded]
            split <;> simp_all [Except.map]
      rw [first, ih, List.flatMap_cons, List.length_append, Nat.add_assoc]
      cases decodeFrom (position + ((encodeChar c).length + (text.flatMap encodeChar).length)) rest <;>
        simp [Except.map]

/-- What can be read is what the text that has been read is written as. -/
theorem encode_of_decodeFrom {position : Nat} {bytes : List UInt8} {text : List Char}
    (h : decodeFrom position bytes = .ok text) : bytes = text.flatMap encodeChar := by
  fun_induction decodeFrom position bytes generalizing text with
  | case1 => cases h; rfl
  | case2 => cases h
  | case3 position b bytes c size rest read text' _ ih =>
      cases h
      rw [List.flatMap_cons, (encodeChar_of_step read).1, ih ‹_›]
  | case4 => cases h

theorem encode_of_fault {position : Nat} {bytes : List UInt8} {fault : Fault}
    (h : decodeFrom position bytes = .error fault) :
    ∃ (text : List Char) (rest : List UInt8), bytes = text.flatMap encodeChar ++ rest ∧
      fault.position = position + (text.flatMap encodeChar).length := by
  fun_induction decodeFrom position bytes with
  | case1 => cases h
  | case2 position b bytes => cases h; exact ⟨[], b :: bytes, rfl, rfl⟩
  | case3 => cases h
  | case4 position b bytes c size rest read fault' _ ih =>
      cases h
      obtain ⟨text, more, rfl, place⟩ := ih ‹_›
      obtain ⟨front, rfl⟩ := encodeChar_of_step read
      refine ⟨c :: text, more, by simp [front], ?_⟩
      simp [place, Nat.add_assoc]

/-! ## Bytes and texts -/

theorem utf8EncodeChar_eq : String.utf8EncodeChar = encodeChar := by
  funext c
  have scalar : c.toNat < 0xD800 ∨ 0xDFFF < c.toNat ∧ c.toNat < 0x110000 := c.valid
  unfold String.utf8EncodeChar encodeChar tailByte Nat.toUInt8
  simp only [show c.val.toNat = c.toNat from rfl]
  generalize c.toNat = n at *
  -- The start bytes have no bits left to drop.
  have two (small : n < 0x800) : n / 64 < 0x20 := by omega
  have three (small : n < 0x10000) : n / 4096 < 0x10 := by omega
  have four : n / 262144 < 0x08 := by omega
  split_ifs <;> first | omega | simp_all [Nat.add_comm, Nat.mod_eq_of_lt]

theorem toByteArray_encode (text : String) : (encode text).toByteArray = text.toByteArray := by
  rw [encode, ← String.utf8Encode_toList, List.utf8Encode]
  simp only [utf8EncodeChar_eq]

theorem toByteArray_inj {a b : List UInt8} : a.toByteArray = b.toByteArray ↔ a = b := by
  refine ⟨fun h => ?_, congrArg _⟩
  rw [← List.toList_data_toByteArray (l := a), h, List.toList_data_toByteArray]

theorem isValidUTF8_iff (bytes : List UInt8) :
    bytes.toByteArray.IsValidUTF8 ↔ ∃ text : List Char, bytes = text.flatMap encodeChar := by
  have written (text : List Char) : text.utf8Encode = (text.flatMap encodeChar).toByteArray := by
    simp only [List.utf8Encode, utf8EncodeChar_eq]
  constructor
  · rintro ⟨text, h⟩
    exact ⟨text, toByteArray_inj.mp (h.trans (written text))⟩
  · rintro ⟨text, rfl⟩
    exact ⟨text, (written text).symm⟩

/-- A text is read exactly from its encoding. -/
theorem decode_eq_ok_iff {bytes : List UInt8} {text : String} :
    decode bytes = .ok text ↔ bytes.toByteArray = text.toByteArray := by
  rw [← toByteArray_encode, toByteArray_inj]
  constructor
  · intro h
    unfold decode at h
    cases read : decodeFrom 0 bytes with
    | error fault => simp [read, Except.map] at h
    | ok chars =>
        obtain rfl : String.ofList chars = text := by simpa [read, Except.map] using h
        rw [encode_of_decodeFrom read, encode, String.toList_ofList]
  · rintro rfl
    exact decode_encode text

/-- Reading fails exactly if the bytes are not valid, and what lies in front of the fault is then
their longest valid beginning. -/
theorem isGreatest_of_decode_error {bytes : List UInt8} {fault : Fault}
    (h : decode bytes = .error fault) :
    IsGreatest {n | n ≤ bytes.length ∧ (bytes.take n).toByteArray.IsValidUTF8} fault.position := by
  have read : decodeFrom 0 bytes = .error fault := by
    unfold decode at h
    cases read : decodeFrom 0 bytes <;> simp_all [Except.map]
  constructor
  · obtain ⟨text, rest, rfl, place⟩ := encode_of_fault read
    rw [Nat.zero_add] at place
    refine ⟨by simp [place], (isValidUTF8_iff _).mpr ⟨text, ?_⟩⟩
    rw [place, List.take_left]
  · rintro n ⟨short, valid⟩
    obtain ⟨text, front⟩ := (isValidUTF8_iff _).mp valid
    -- What is read behind a valid beginning can only be at fault behind it.
    rw [← List.take_append_drop n bytes, front, decodeFrom_append] at read
    cases behind : decodeFrom (0 + (text.flatMap encodeChar).length) (bytes.drop n) with
    | ok more =>
        rw [behind] at read
        cases read
    | error late =>
        rw [behind] at read
        obtain rfl : late = fault := by simpa [Except.map] using read
        obtain ⟨more, rest, -, place⟩ := encode_of_fault behind
        rw [← front, List.length_take] at place
        omega

end NinjaFile.Text.Utf8
