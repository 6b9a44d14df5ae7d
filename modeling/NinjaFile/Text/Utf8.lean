import NinjaFile.Text.Digit

/-!
# UTF-8

Bytes are read strictly: no overlong forms, no surrogates, nothing above
U+10FFFF.  A fault names the bytes from the start byte through the last
continuation byte that was still possible, and what is wrong after them.
-/

namespace NinjaFile.Text.Utf8

inductive Reason where
  | invalidStart
  | invalidContinuation
  | unexpectedEnd
deriving DecidableEq, Repr

namespace Reason

def text : Reason → String
  | .invalidStart => "invalid start byte"
  | .invalidContinuation => "invalid continuation byte"
  | .unexpectedEnd => "unexpected end of data"

end Reason

/-- The `size` bytes at `position` cannot be read; the first of them is `byte`. -/
structure Fault where
  position : Nat
  size : Nat
  byte : UInt8
  reason : Reason
deriving DecidableEq, Repr

/-! ## Characters -/

/-- The number of continuation bytes a start byte asks for, with the least and
the greatest first one, and the bits the start byte itself gives. -/
structure Lead where
  tails : Nat
  least : UInt8
  greatest : UInt8
  bits : Nat
deriving DecidableEq, Repr

def lead? (b : UInt8) : Option Lead :=
  if b < 0xC2 then none
  else if b < 0xE0 then some ⟨1, 0x80, 0xBF, b.toNat - 0xC0⟩
  else if b = 0xE0 then some ⟨2, 0xA0, 0xBF, 0⟩
  else if b = 0xED then some ⟨2, 0x80, 0x9F, 0xD⟩
  else if b < 0xF0 then some ⟨2, 0x80, 0xBF, b.toNat - 0xE0⟩
  else if b = 0xF0 then some ⟨3, 0x90, 0xBF, 0⟩
  else if b < 0xF4 then some ⟨3, 0x80, 0xBF, b.toNat - 0xF0⟩
  else if b = 0xF4 then some ⟨3, 0x80, 0x8F, 4⟩
  else none

inductive Tail where
  | done (code : Nat) (rest : List UInt8)
  | bad (read : Nat) (reason : Reason)
deriving DecidableEq, Repr

/-- Reads the continuation bytes that are still owed; only the first one after
the start byte has bounds of its own. -/
def readTail : Nat → UInt8 → UInt8 → Nat → List UInt8 → Tail
  | 0, _, _, code, rest => .done code rest
  | _ + 1, _, _, _, [] => .bad 0 .unexpectedEnd
  | owed + 1, least, greatest, code, b :: rest =>
      if least ≤ b ∧ b ≤ greatest then
        match readTail owed 0x80 0xBF (code * 64 + (b.toNat - 0x80)) rest with
        | .done code rest => .done code rest
        | .bad read reason => .bad (read + 1) reason
      else .bad 0 .invalidContinuation

/-- One character of `size` bytes, or the bytes at fault. -/
inductive Step where
  | char (c : Char) (size : Nat) (rest : List UInt8)
  | bad (size : Nat) (reason : Reason)

def step (b : UInt8) (rest : List UInt8) : Step :=
  if b < 0x80 then .char (Char.ofNat b.toNat) 1 rest
  else
    match lead? b with
    | none => .bad 1 .invalidStart
    | some lead =>
        match readTail lead.tails lead.least lead.greatest lead.bits rest with
        | .done code rest => .char (Char.ofNat code) (lead.tails + 1) rest
        | .bad read reason => .bad (read + 1) reason

theorem readTail_length {owed : Nat} {least greatest : UInt8} {code n : Nat}
    {bytes rest : List UInt8} (h : readTail owed least greatest code bytes = .done n rest) :
    rest.length ≤ bytes.length := by
  induction owed generalizing least greatest code bytes with
  | zero => simp [readTail] at h; simp [h.2]
  | succ owed ih =>
      cases bytes with
      | nil => simp [readTail] at h
      | cons b tail =>
          simp only [readTail] at h
          split at h
          · split at h
            · rename_i heq
              simp only [Tail.done.injEq] at h
              obtain ⟨rfl, rfl⟩ := h
              have := ih heq
              simp; omega
            · simp at h
          · simp at h

theorem step_length {b : UInt8} {bytes rest : List UInt8} {c : Char} {size : Nat}
    (h : step b bytes = .char c size rest) : rest.length ≤ bytes.length := by
  unfold step at h
  split at h
  · simp only [Step.char.injEq] at h; simp [h.2.2]
  · split at h
    · simp at h
    · split at h
      · rename_i heq
        simp only [Step.char.injEq] at h
        obtain ⟨-, -, rfl⟩ := h
        exact readTail_length heq
      · simp at h

/-! ## Texts -/

/-- Reads bytes that start at `position` of the whole. -/
def decodeFrom (position : Nat) : List UInt8 → Except Fault (List Char)
  | [] => .ok []
  | b :: bytes =>
      match _read : step b bytes with
      | .bad size reason => .error ⟨position, size, b, reason⟩
      | .char c size rest =>
          match decodeFrom (position + size) rest with
          | .ok text => .ok (c :: text)
          | .error fault => .error fault
termination_by bytes => bytes.length
decreasing_by
  have := step_length _read
  simp; omega

def decode (bytes : List UInt8) : Except Fault String :=
  (decodeFrom 0 bytes).map String.ofList

/-- A continuation byte with the last six bits of a number. -/
def tailByte (n : Nat) : UInt8 := (0x80 + n % 64).toUInt8

def encodeChar (c : Char) : List UInt8 :=
  let n := c.toNat
  if n < 0x80 then [n.toUInt8]
  else if n < 0x800 then [(0xC0 + n / 64).toUInt8, tailByte n]
  else if n < 0x10000 then [(0xE0 + n / 4096).toUInt8, tailByte (n / 64), tailByte n]
  else [(0xF0 + n / 262144).toUInt8, tailByte (n / 4096), tailByte (n / 64), tailByte n]

def encode (text : String) : List UInt8 :=
  text.toList.flatMap encodeChar

/-! ## Messages -/

namespace Fault

/-- A single byte at fault is shown itself, several by their first and last position. -/
def message (fault : Fault) : String :=
  let place :=
    if fault.size = 1 then
      "byte 0x" ++ String.ofList (hexDigits 2 fault.byte.toNat) ++ " in position " ++ toString fault.position
    else
      "bytes in position " ++ toString fault.position ++ "-" ++
        toString (fault.position + fault.size - 1)
  "'utf-8' codec can't decode " ++ place ++ ": " ++ fault.reason.text

end Fault

end NinjaFile.Text.Utf8
