import Mathlib.Data.List.TakeDrop
import Mathlib.Data.List.TakeWhile
import Mathlib.Data.Set.Operations
import NinjaFile.Text.Escape

/-!
# Escaped text

The scan copies nothing before the first special character and everything from there on.
Whether it has started a copy or not, what it ends with is the text escaped character by
character.

A reader goes from left to right, and a `$` takes the character behind it along.  A text
whose special characters are all escaped is passed as a whole.
-/

namespace NinjaFile.Text.Escape

theorem toList_put (k : Context) (c : Char) (copy : Array Char) :
    (put k c copy).toList = copy.toList ++ encodeChar k c := by
  unfold put encodeChar
  split <;> simp

theorem encode_eq_self {k : Context} {text : List Char}
    (h : ∀ c ∈ text, isSpecial k c = false) : encode k text = text := by
  induction text with
  | nil => rfl
  | cons c rest ih =>
      rw [encode_cons, encodeChar_plain (h c List.mem_cons_self),
        ih fun d hd => h d (List.mem_cons_of_mem c hd)]
      rfl

/-- A copy that has been started goes on to the end, wherever in the text it is. -/
theorem scan_some (k : Context) (text : List Char) (i : Nat) (copy : Array Char)
    (rest : List Char) :
    (scan k text i (some copy) rest).map Array.toList = some (copy.toList ++ encode k rest) := by
  induction rest generalizing i copy with
  | nil => simp [scan]
  | cons c rest ih => simp [scan, ih, toList_put]

/-- As long as there is no copy, the scan stands behind plain characters only, and its place is
their number. -/
theorem scan_none (k : Context) {done : List Char} (plain : ∀ c ∈ done, isSpecial k c = false)
    (rest : List Char) :
    (scan k (done ++ rest) done.length none rest).map Array.toList =
      if rest.any (isSpecial k) then some (done ++ encode k rest) else none := by
  induction rest generalizing done with
  | nil => simp [scan]
  | cons c rest ih =>
      cases special : isSpecial k c with
      | true => simp [scan, special, scan_some, toList_put]
      | false =>
          have longer : ∀ d ∈ done ++ [c], isSpecial k d = false := by
            simpa [or_imp, forall_and, special] using plain
          simpa [scan, special, encodeChar_plain special] using ih longer

theorem changed?_eq (k : Context) (text : List Char) :
    changed? k text = if text.any (isSpecial k) then some (encode k text) else none :=
  @scan_none k [] (by simp) text

theorem toList_escape (k : Context) (text : String) :
    (escape k text).toList = encode k text.toList := by
  unfold escape
  rw [changed?_eq]
  cases special : text.toList.any (isSpecial k) with
  | true => simp
  | false => simp [encode_eq_self (k := k) (by simpa using special)]

theorem isPlain_iff (k : Context) (text : String) :
    isPlain k text = true ↔ ∀ c ∈ text.toList, isSpecial k c = false := by
  unfold isPlain
  rw [changed?_eq]
  cases special : text.toList.any (isSpecial k) <;> simp_all

/-- Escaping goes character by character, wherever the first special one stands.  The text itself
comes back exactly if nothing in it is special, and texts can be escaped part by part. -/
theorem escape_charwise (k : Context) (text : String) :
    (escape k text).toList =
        (text.toList.flatMap fun c => if isSpecial k c then ['$', c] else [c]) ∧
      (isPlain k text = true ↔ ∀ c ∈ text.toList, isSpecial k c = false) ∧
      ∀ more : String, escape k (text ++ more) = escape k text ++ escape k more := by
  refine ⟨toList_escape k text, isPlain_iff k text, fun more => ?_⟩
  apply String.toList_injective
  simp [toList_escape]

/-- The special character may be the last one. -/
example : escape .output "né:" = "né$:" ∧ isPlain .path "né:" = true := by decide

/-! ## What escaping writes -/

theorem mem_encode {k : Context} {text : List Char} {c : Char} (h : c ∈ encode k text) :
    c = '$' ∨ c ∈ text := by
  rw [encode, List.mem_flatMap] at h
  obtain ⟨d, hd, hc⟩ := h
  cases special : isSpecial k d with
  | true =>
      rw [encodeChar_special special] at hc
      rcases List.mem_cons.mp hc with rfl | hc
      · exact .inl rfl
      · exact .inr (List.mem_singleton.mp hc ▸ hd)
  | false =>
      rw [encodeChar_plain special, List.mem_singleton] at hc
      exact .inr (hc ▸ hd)

theorem eq_of_encode {k : Context} {text written : List Char} (h : encode k text = written)
    (plain : '$' ∉ written) : text = written := by
  rw [← h]
  refine (encode_eq_self fun c hc => ?_).symm
  by_contra special
  refine plain (h ▸ List.mem_flatMap.mpr ⟨c, hc, ?_⟩)
  rw [encodeChar_special (by simpa using special)]
  exact List.mem_cons_self

/-! ## Texts without an end -/

variable {stop : Char → Bool}

/-- A text in which every character that is a `stop` is escaped. -/
inductive Sealed (stop : Char → Bool) : List Char → Prop where
  | nil : Sealed stop []
  | plain {c : Char} {rest : List Char} (literal : c ≠ '$') (goesOn : stop c = false)
      (sealed : Sealed stop rest) : Sealed stop (c :: rest)
  | escaped (c : Char) {rest : List Char} (sealed : Sealed stop rest) :
      Sealed stop ('$' :: c :: rest)

namespace Sealed

theorem append {u v : List Char} (hu : Sealed stop u) (hv : Sealed stop v) :
    Sealed stop (u ++ v) := by
  induction hu with
  | nil => exact hv
  | plain literal goesOn _ ih => exact .plain literal goesOn ih
  | escaped c _ ih => exact .escaped c ih

theorem mono {stop' : Char → Bool} {text : List Char} (h : Sealed stop text)
    (less : ∀ c, stop' c = true → stop c = true) : Sealed stop' text := by
  induction h with
  | nil => exact .nil
  | plain literal goesOn _ ih =>
      refine .plain literal ?_ ih
      by_contra ends
      rw [less _ (by simpa using ends)] at goesOn
      exact nomatch goesOn
  | escaped c _ ih => exact .escaped c ih

theorem of_forall {text : List Char} (h : ∀ c ∈ text, c ≠ '$' ∧ stop c = false) :
    Sealed stop text := by
  induction text with
  | nil => exact .nil
  | cons c rest ih =>
      obtain ⟨literal, goesOn⟩ := h c List.mem_cons_self
      exact .plain literal goesOn (ih fun d hd => h d (List.mem_cons_of_mem c hd))

theorem encode {k : Context} (h : ∀ c, stop c = true → isSpecial k c = true) (text : List Char) :
    Sealed stop (encode k text) := by
  induction text with
  | nil => exact .nil
  | cons c rest ih =>
      rw [encode_cons]
      cases special : isSpecial k c with
      | true =>
          rw [encodeChar_special special]
          exact .escaped c ih
      | false =>
          rw [encodeChar_plain special]
          refine .plain ?_ ?_ ih
          · rintro rfl
            exact absurd special (by simp [isSpecial])
          · by_contra ends
            rw [h c (by simpa using ends)] at special
            exact nomatch special

theorem intercalate {between : List Char} (hbetween : Sealed stop between)
    {words : List (List Char)} (h : ∀ w ∈ words, Sealed stop w) :
    Sealed stop (between.intercalate words) := by
  induction words with
  | nil => exact .nil
  | cons w rest ih =>
      have first := h w List.mem_cons_self
      cases rest with
      | nil => simpa using first
      | cons w' rest =>
          rw [List.intercalate_cons_cons]
          exact (first.append hbetween).append (ih fun v hv => h v (List.mem_cons_of_mem w hv))

end Sealed

/-! ## Reading up to an end -/

/-- The text up to the first stop that is not escaped, and the text from there on. -/
def cut (stop : Char → Bool) : List Char → List Char × List Char
  | '$' :: c :: rest => ('$' :: c :: (cut stop rest).1, (cut stop rest).2)
  | c :: rest => if stop c then ([], c :: rest) else (c :: (cut stop rest).1, (cut stop rest).2)
  | [] => ([], [])

theorem cut_plain {c : Char} (h : c ≠ '$') (rest : List Char) :
    cut stop (c :: rest) =
      if stop c then ([], c :: rest) else (c :: (cut stop rest).1, (cut stop rest).2) := by
  rw [cut]
  simp [h]

theorem Sealed.cut_append {text : List Char} (h : Sealed stop text) (rest : List Char) :
    cut stop (text ++ rest) = (text ++ (cut stop rest).1, (cut stop rest).2) := by
  induction h with
  | nil => rfl
  | plain literal goesOn _ ih =>
      rw [List.cons_append, cut_plain literal, if_neg (by simp [goesOn]), ih]
      rfl
  | escaped c _ ih =>
      rw [List.cons_append, List.cons_append, cut, ih]
      rfl

/-- A sealed text is read up to the stop behind it. -/
theorem Sealed.cut_stop {text : List Char} (h : Sealed stop text) {c : Char} (ends : stop c = true)
    (literal : c ≠ '$') (rest : List Char) : cut stop (text ++ c :: rest) = (text, c :: rest) := by
  rw [h.cut_append, cut_plain literal, if_pos ends, List.append_nil]

/-! ## Reading word by word -/

/-- The pieces of a text between the stops that are not escaped. -/
def pieces (stop : Char → Bool) : List Char → List (List Char)
  | '$' :: c :: rest => (pieces stop rest).modifyHead ('$' :: c :: ·)
  | c :: rest => if stop c then [] :: pieces stop rest else (pieces stop rest).modifyHead (c :: ·)
  | [] => [[]]

theorem pieces_plain {c : Char} (h : c ≠ '$') (rest : List Char) :
    pieces stop (c :: rest) =
      if stop c then [] :: pieces stop rest else (pieces stop rest).modifyHead (c :: ·) := by
  rw [pieces]
  simp [h]

theorem Sealed.pieces_append {text : List Char} (h : Sealed stop text) (rest : List Char) :
    pieces stop (text ++ rest) = (pieces stop rest).modifyHead (text ++ ·) := by
  induction h with
  | nil => exact (congrFun List.modifyHead_id _).symm
  | plain literal goesOn _ ih =>
      rw [List.cons_append, pieces_plain literal, if_neg (by simp [goesOn]), ih,
        List.modifyHead_modifyHead]
      rfl
  | escaped c _ ih =>
      rw [List.cons_append, List.cons_append, pieces, ih, List.modifyHead_modifyHead]
      rfl

theorem pieces_intercalate {c : Char} (ends : stop c = true) (literal : c ≠ '$')
    {words : List (List Char)} (some : words ≠ []) (h : ∀ w ∈ words, Sealed stop w) :
    pieces stop ([c].intercalate words) = words := by
  induction words with
  | nil => exact absurd rfl some
  | cons w rest ih =>
      have first := h w List.mem_cons_self
      cases rest with
      | nil =>
          have := first.pieces_append []
          simpa [pieces] using this
      | cons w' rest =>
          rw [List.intercalate_cons_cons, List.append_assoc, List.singleton_append,
            first.pieces_append, pieces_plain literal, if_pos ends,
            ih (List.cons_ne_nil _ _) fun v hv => h v (List.mem_cons_of_mem w hv)]
          simp

end NinjaFile.Text.Escape

/-!
## Taking escapes away

Whatever a context gives a meaning to, a reader drops the `$` in front of it.  A context
writes its own escapes only, so what is read back is the text, and the texts that a context
writes are those in which it has nothing left to escape.
-/

namespace NinjaFile.Text.Escape

/-- The text without the `$` in front of special characters, from left to right.  A `$` in
front of any other character stays. -/
def decode : List Char → List Char
  | '$' :: c :: rest =>
      if isSpecial .output c then c :: decode rest else '$' :: decode (c :: rest)
  | c :: rest => c :: decode rest
  | [] => []

def unescape (text : String) : String := String.ofList (decode text.toList)

/-- A text whose `$` all stand in front of a special character that goes with them, and in
which every special character goes with a `$`. -/
inductive Escaped (k : Context) : List Char → Prop where
  | nil : Escaped k []
  | plain {c : Char} {rest : List Char} (literal : isSpecial k c = false)
      (others : Escaped k rest) : Escaped k (c :: rest)
  | escaped {c : Char} {rest : List Char} (special : isSpecial k c = true)
      (others : Escaped k rest) : Escaped k ('$' :: c :: rest)

/-! ## One character -/

variable {k : Context} {c : Char}

theorem isSpecial_output (h : isSpecial k c = true) : isSpecial .output c = true := by
  simp only [isSpecial, Bool.or_eq_true, Bool.and_eq_true] at h ⊢
  rcases h with ((dollar | newline) | space) | colon
  · simp [dollar]
  · simp [newline]
  · simp [space.2, Context.output]
  · simp [colon.2, Context.output]

theorem ne_dollar (h : isSpecial k c = false) : c ≠ '$' := by
  rintro rfl
  simp [isSpecial] at h

theorem decode_plain (h : c ≠ '$') (rest : List Char) : decode (c :: rest) = c :: decode rest := by
  rw [decode]
  simp [h]

theorem decode_escaped (h : isSpecial k c = true) (rest : List Char) :
    decode ('$' :: c :: rest) = c :: decode rest := by
  rw [decode, if_pos (isSpecial_output h)]

/-! ## Whole texts -/

theorem decode_encode (k : Context) (text : List Char) : decode (encode k text) = text := by
  induction text with
  | nil => rfl
  | cons c rest ih =>
      cases special : isSpecial k c with
      | true => simp [encodeChar_special special, decode_escaped special, ih]
      | false => simp [encodeChar_plain special, decode_plain (ne_dollar special), ih]

theorem escaped_encode (k : Context) (text : List Char) : Escaped k (encode k text) := by
  induction text with
  | nil => exact .nil
  | cons c rest ih =>
      rw [encode_cons]
      cases special : isSpecial k c with
      | true =>
          rw [encodeChar_special special]
          exact .escaped special ih
      | false =>
          rw [encodeChar_plain special]
          exact .plain special ih

theorem Escaped.encode_decode {text : List Char} (h : Escaped k text) :
    encode k (decode text) = text := by
  induction h with
  | nil => rfl
  | plain literal _ ih => simp [decode_plain (ne_dollar literal), encodeChar_plain literal, ih]
  | escaped special _ ih => simp [decode_escaped special, encodeChar_special special, ih]

theorem unescape_escape (k : Context) (text : String) : unescape (escape k text) = text := by
  simp [unescape, toList_escape, decode_encode]

theorem escaped_escape (k : Context) (text : String) : Escaped k (escape k text).toList := by
  rw [toList_escape]
  exact escaped_encode k text.toList

theorem escape_unescape {text : String} (h : Escaped k text.toList) :
    escape k (unescape text) = text := by
  apply String.toList_injective
  rw [toList_escape, unescape, String.toList_ofList, h.encode_decode]

/-- Escaping is a bijection onto the escaped texts, and taking the escapes away is its
inverse. -/
theorem escape_bijective (k : Context) :
    (∀ text, unescape (escape k text) = text) ∧
      (∀ text, escape k (unescape text) = text ↔ Escaped k text.toList) ∧
      Set.range (escape k) = {text | Escaped k text.toList} := by
  refine ⟨unescape_escape k, fun text => ⟨fun same => ?_, escape_unescape⟩, ?_⟩
  · rw [← same]
    exact escaped_escape k _
  · ext text
    constructor
    · rintro ⟨source, rfl⟩
      exact escaped_escape k source
    · intro escaped
      exact ⟨unescape text, escape_unescape escaped⟩

/-- A `$` in front of a space is an escape for every reader, also where spaces were not
written with one. -/
example : unescape "a$ b$x" = "a b$x" ∧ escape .value (unescape "a$ b") = "a b" := by decide

end NinjaFile.Text.Escape
