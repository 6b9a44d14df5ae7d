import NinjaFile.Manifest.Loading
import NinjaFile.Proofs.Json.Scanning
import NinjaFile.Proofs.Text.Utf8

/-!
# Loading a manifest and validating its text

Line ends are white space to a reader of JSON, or they are faults: inside a text or a word a
carriage return is as wrong as a newline is.  To read all of them as newlines changes no token,
and so nothing that is read.
-/

namespace NinjaFile

namespace Json

/-! ## Line ends between tokens -/

/-- The letters that have to come are no white space. -/
def Scan.Solid : Scan → Prop
  | .word left _ => ∀ c ∈ left, isBlank c = false
  | _ => True

variable {limit : DigitLimit} {scan scan' : Scan} {c : Char} {tokens : List Token}

theorem solid_between : Scan.between.Solid := trivial

theorem Scan.Quoting.solid (h : scan.Quoting) : scan.Solid := by
  cases scan <;> trivial

theorem Begins.solid (h : Begins c scan tokens) : scan.Solid := by
  cases h with
  | word letters => exact letters
  | _ => trivial

theorem Scan.Solid.goes (solid : scan.Solid) (h : Goes limit c scan scan' tokens) : scan'.Solid := by
  cases h with
  | start begins => exact begins.solid
  | letter => exact fun d hd => solid d (List.mem_cons_of_mem _ hd)
  | number _ _ begins => exact begins.solid
  | infinity letters => exact letters
  | quoted _ quoting => exact quoting.solid
  | _ => trivial

theorem step_word_of_blank {left : List Char} {v : Json} (solid : (Scan.word left v).Solid)
    (blank : isBlank c = true) : step limit (.word left v) c = none := by
  cases left with
  | nil => rfl
  | cons next left =>
      have differs : c ≠ next := by
        rintro rfl
        exact absurd blank (by simp [solid c (List.mem_cons_self ..)])
      cases left with
      | nil => simp [step, differs]
      | cons second left => simp [step, differs]

theorem step_return (solid : scan.Solid) : step limit scan '\r' = step limit scan '\n' := by
  cases scan with
  | word left v => rw [step_word_of_blank solid rfl, step_word_of_blank solid rfl]
  | number phase read => cases phase <;> rfl
  | _ => rfl

theorem between_of_newline (solid : scan.Solid) (h : step limit scan '\n' = some (scan', tokens)) :
    scan' = .between := by
  cases scan with
  | word left v =>
      rw [step_word_of_blank solid rfl] at h
      cases h
  | number phase read =>
      have ended : phase.next? '\n' = none := by cases phase <;> rfl
      simp only [step, ended] at h
      split at h
      · split at h
        · cases h
        · cases h
          rfl
      · simp at h
  | between =>
      cases h
      rfl
  | _ => cases h

open Manifest (newlines)

/-- Whatever ends the lines of a text, its tokens are those of the text with newlines. -/
theorem scanFrom_newlines (solid : scan.Solid) (text : List Char) :
    scanFrom limit scan (newlines text) = scanFrom limit scan text := by
  fun_induction newlines text generalizing scan with
  | case1 => rfl
  | case2 rest ih =>
      rw [scanFrom, scanFrom, step_return solid]
      cases taken : step limit scan '\n' with
      | none => rfl
      | some next =>
          obtain ⟨scan', tokens⟩ := next
          obtain rfl := between_of_newline solid taken
          -- The newline behind the carriage return is one more blank.
          simp [scanFrom, step, start, isBlank, ih solid_between]
  | case3 rest alone ih =>
      rw [scanFrom, scanFrom, step_return solid]
      cases taken : step limit scan '\n' with
      | none => rfl
      | some next => simp only [ih (solid.goes (goes_of_step taken))]
  | case4 c rest _ _ ih =>
      rw [scanFrom, scanFrom]
      cases taken : step limit scan c with
      | none => rfl
      | some next => simp only [ih (solid.goes (goes_of_step taken))]

theorem read?_newlines (limits : Limits) (text : String) :
    read? limits (String.ofList (newlines text.toList)) = read? limits text := by
  rw [read?, read?, tokens?, tokens?, String.toList_ofList, scanFrom_newlines solid_between]

end Json

namespace Manifest

theorem ofText_newlines (text : String) :
    ofText (String.ofList (newlines text.toList)) = ofText text := by
  rw [ofText, ofText, Json.read?_newlines]

theorem ofFile_encode (text : String) :
    ofFile (Text.Utf8.encode text) = (ofText text).mapError LoadFault.invalid := by
  have decoded : decodeFile (Text.Utf8.encode text) = .ok (String.ofList (newlines text.toList)) := by
    rw [decodeFile, Text.Utf8.decode_encode]
  simp only [ofFile, decoded, bind, Except.bind, ofText_newlines]
  cases ofText text <;> rfl

end Manifest

theorem FileTree.isFile_of_read {files : FileTree} {path : Text.Path} {content : List UInt8}
    (h : files.read path = .ok content) : files.isFile path = .ok true := by
  rw [read] at h
  cases located : files.locate path with
  | error fault =>
      rw [located] at h
      cases h
  | ok place =>
      rw [located] at h
      rw [isFile, located]
      cases found : files.lookup place with
      | none => simp [bind, Except.bind, found] at h
      | some entry =>
          cases entry with
          | file content => simp only [found]
          | directory => simp [bind, Except.bind, found] at h

namespace Manifest

/-- To load a file is to validate the text that is in it, whatever ends the lines of the text and
whether or not the text is a manifest. -/
theorem load_encoded (files : FileTree) (path : Text.Path) (text : String)
    (stored : files.read path = .ok (Text.Utf8.encode text)) :
    load files path = (ofText text).mapError LoadFault.invalid := by
  rw [load, FileTree.isFile_of_read stored, stored]
  exact ofFile_encode text

theorem load_encoded_lines :
    (FileTree.mk [(["m"], .file (Text.Utf8.encode "\x7b\r\n\"escape\":\r3\x7d"))] []).read ⟨.single, ["m"]⟩ =
      .ok (Text.Utf8.encode "\x7b\r\n\"escape\":\r3\x7d") ∧
    load ⟨[(["m"], .file (Text.Utf8.encode "\x7b\r\n\"escape\":\r3\x7d"))], []⟩ ⟨.single, ["m"]⟩ =
      .error (.invalid [⟨.unreadableBool, [.key "escape"]⟩]) := by
  have stored : (FileTree.mk [(["m"], .file (Text.Utf8.encode "\x7b\r\n\"escape\":\r3\x7d"))] []).read
      ⟨.single, ["m"]⟩ = .ok (Text.Utf8.encode "\x7b\r\n\"escape\":\r3\x7d") := by
    have part : "m".utf8ByteSize = 1 := by rfl
    have whole : "/m".utf8ByteSize = 2 := by rfl
    simp [FileTree.read, FileTree.locate, Text.Path.toText, Text.Path.rootText, FileTree.lookup,
      FileTree.follow, FileTree.pathLimit, FileTree.componentLimit, part, whole, bind, Except.bind]
  exact ⟨stored, (load_encoded _ _ _ stored).trans (by rfl)⟩

end Manifest

end NinjaFile
