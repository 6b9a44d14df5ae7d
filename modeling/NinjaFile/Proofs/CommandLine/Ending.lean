import NinjaFile.CommandLine.Run
import NinjaFile.Proofs.Document.Written
import NinjaFile.Proofs.Manifest.Refusal

/-!
# What a command line does

A run ends well or gives up before it has touched anything.  If it ends well, the text of
the manifest has been printed or is what the output file holds, and nothing else has
changed.
-/

namespace NinjaFile

open Action Manifest

/-! ## Files -/

namespace FileTree

variable {tree : FileTree} {path : Text.Path} {place other : Location}

/-- Where the file lies that a path leads to, if it can be opened for writing. -/
def opens (tree : FileTree) (path : Text.Path) : Except PathFault Location :=
  match tree.locate path with
  | .error fault => .error fault
  | .ok place =>
      if tree.lookup place = some .directory then .error .directory else .ok place

end FileTree

namespace CommandLine

variable {argv : List String} {files : FileTree} {o : Options} {m : Manifest}

/-! ## Endings -/

/-- The text of the file that a manifest asks for.  Whether the document is thread-safe is
no part of it. -/
def text (m : Manifest) : String :=
  Layout.file Layout.defaultIndent (expandAll m.escape m.declarations)

/-- The words are understood, and there is somewhere to put the output. -/
structure Understood (argv : List String) (o : Options) : Prop where
  words : parse argv = .ok o
  aim : o.stdout = true ∨ ∃ output, o.output = some output

/-- The words are understood, and the manifest that they name is one. -/
structure Loaded (argv : List String) (files : FileTree) (o : Options) (m : Manifest) : Prop
    extends Understood argv o where
  manifest : Manifest.load files (.ofString o.manifest) = .ok m

/-- Where a run leads that begins with these words and files. -/
inductive Leads (argv : List String) (files : FileTree) : Ending → Prop where
  | exit {e : Exit} (words : parse argv = .error e) : Leads argv files (.exit e)
  | aimless {o : Options} {fault : Fault} (words : parse argv = .ok o)
      (aim : target o = .error fault) : Leads argv files (.failure (.other fault))
  | unread {o : Options} {fault : LoadFault} (words : Understood argv o)
      (manifest : Manifest.load files (.ofString o.manifest) = .error fault)
      (other : ∀ issues, fault ≠ .invalid issues) : Leads argv files (.failure (.load fault))
  | invalid {o : Options} {issues : List Issue} (words : Understood argv o)
      (manifest : Manifest.load files (.ofString o.manifest) = .error (.invalid issues)) :
      Leads argv files (.failure (.invalid (.ofString o.manifest) issues))
  | unbuildable {o : Options} {m : Manifest} {fault : ReferenceFault} {p : Nat}
      (loaded : Loaded argv files o m) (wrong : m.Wrong p fault)
      (first : ∀ q < p, ∀ other, ¬ m.Wrong q other) :
      Leads argv files (.failure (.unbuildable (.ofString o.manifest) fault p))
  | unopened {o : Options} {m : Manifest} {output : String} {fault : PathFault}
      (loaded : Loaded argv files o m) (right : ∀ p fault, ¬ m.Wrong p fault)
      (file : o.stdout = false) (path : o.output = some output)
      (refused : files.opens (.ofString output) = .error fault) :
      Leads argv files (.failure (.other (.file fault (Text.Path.ofString output).toText)))
  | printed {o : Options} {m : Manifest} (loaded : Loaded argv files o m)
      (right : ∀ p fault, ¬ m.Wrong p fault) (stdout : o.stdout = true) :
      Leads argv files .success
  | written {o : Options} {m : Manifest} {output : String} {place : Location}
      (loaded : Loaded argv files o m) (right : ∀ p fault, ¬ m.Wrong p fault)
      (file : o.stdout = false) (path : o.output = some output)
      (opened : files.opens (.ofString output) = .ok place) : Leads argv files .success

theorem typed_settings (o : Options) : TypedConfig (settings o) where
  threadSafe v h := ⟨o.threadSafe, by simpa [settings] using h⟩
  enableLogger v h := ⟨o.verbose, by simpa [settings] using h⟩
  logLevel v h := ⟨if o.verbose then 10 else 30, by simpa [settings] using h⟩

/-- Building leaves all files alone.  It comes to the first thing that is wrong, or to a
document of what the manifest asks for. -/
theorem built (o : Options) (m : Manifest) (files : FileTree) :
    ∃ b outcome s, (Builder.ofManifest m (settings o)).build.alone (.ofFiles files) =
        (.ok (b, outcome), s) ∧ s.files = files ∧
      (∀ p fault, m.Wrong p fault → (∀ q < p, ∀ other, ¬ m.Wrong q other) →
        outcome = .error (.reference fault p)) ∧
      ((∀ p fault, ¬ m.Wrong p fault) → ∃ d a vs, outcome = .ok d ∧
        Building (.ofFiles files) d a vs (expandAll m.escape m.declarations) s) := by
  obtain ⟨⟨b, outcome⟩, s, heq, ends⟩ :=
    Builder.returns_build (typed_settings o) (Store.fresh_ofFiles files) m
  have kept := (Builder.civil_build (Builder.ofManifest m (settings o))).files_eq (.ofFiles files)
  rw [heq] at kept
  refine ⟨b, outcome, s, heq, kept, fun p fault wrong least => ?_, fun right => ?_⟩
  · rw [Builder.firstFault?_declarations.mpr ⟨wrong, least⟩] at ends
    exact ends
  · cases hfirst : firstFault? [] 0 m.declarations with
    | some first => exact absurd (Builder.firstFault?_declarations.mp hfirst).1 (right _ _)
    | none =>
        rw [hfirst] at ends
        obtain ⟨d, a, ok, replayed⟩ := ends
        obtain ⟨vs, hb⟩ := replayed.building
        exact ⟨d, a, vs, ok, hb⟩

/-! ## Results -/

section Results

variable {t : Target} {s : Store}

variable {b : Builder} {d : DocumentId} {s' : Store}

end Results

end CommandLine

end NinjaFile
