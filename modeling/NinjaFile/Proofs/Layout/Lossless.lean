import NinjaFile.Proofs.Document.Rendered
import NinjaFile.Proofs.Layout.Plain

/-!
# Nothing is lost in a file

What a formatter makes of plain statements says which statements they are, in which order,
and what is in every field of them.
-/

namespace NinjaFile

open Store

namespace Script.Formatter

/-- A formatter with the usual mark. -/
def usual (n : Serial) : Value := .object (.formatter n Layout.defaultIndent)

variable {s s' : Store} {vs ws : List Value} {xs ys : List Statement} {n n' : Serial}

theorem alone_usual (bare : s.Bare (.serial n)) (h : List.Forall₂ s.Legible vs xs) :
    (fileText (usual n) (.list vs)).alone s =
      (.ok (.text (Layout.file Layout.defaultIndent xs)), s) :=
  alone_fileText bare h

/-- Plain statements of which a formatter makes the same are the same. -/
theorem eq_of_fileText (bare : s.Bare (.serial n)) (bare' : s'.Bare (.serial n'))
    (hx : List.Forall₂ s.Legible vs xs) (hy : List.Forall₂ s'.Legible ws ys)
    (plain : ∀ st ∈ xs, st.Plain) (plain' : ∀ st ∈ ys, st.Plain)
    (same : ((fileText (usual n) (.list vs)).alone s).1 =
      ((fileText (usual n') (.list ws)).alone s').1) : xs = ys := by
  rw [alone_usual bare hx, alone_usual bare' hy] at same
  exact Layout.eq_of_file plain plain' (Value.text.inj (Except.ok.inj same))

/-- A store with a rule and a build of it. -/
def sample : Store :=
  let made := (RuleId.make (.text "cc") (.text "gcc $in") (.ownership .single)).alone
    (.ofFiles ⟨[], []⟩)
  ((BuildId.make (.object (.rule ⟨0⟩)) (.text "a$:$ b") (.ownership .shared)).alone made.2).2

def sampleValues (n : Serial) : List Value :=
  [.object (.comment n "rule x"), .object (.rule ⟨0⟩), .object (.build ⟨0⟩)]

def sampleStatements : List Statement :=
  [.comment "rule x", .rule "cc" [.binding ⟨"command", "gcc $in"⟩],
    .build ⟨"cc", ⟨["a$:$ b"], [], [], [], [], []⟩, []⟩]

theorem plain_sample : ∀ st ∈ sampleStatements, st.Plain := by
  simp only [sampleStatements, List.forall_mem_cons]
  refine ⟨show OneLine _ by decide, ⟨by decide, ?_⟩, ⟨by decide, ?_, ?_⟩, ?_⟩
  · exact List.forall_mem_singleton.mpr ⟨_, rfl, by decide, by decide⟩
  · intro slot p hp
    cases slot <;> try exact absurd hp List.not_mem_nil
    rw [List.mem_singleton.mp hp]
    exact ⟨"a: b", by decide, by decide, by decide⟩
  all_goals exact fun _ h => absurd h List.not_mem_nil

theorem legible_sample (n : Serial) :
    List.Forall₂ sample.Legible (sampleValues n) sampleStatements := by
  have bare (i : Identity) : sample.Bare i := fun name => rfl
  refine .cons ⟨rfl, fun i _ => bare i, bare _, nofun, nofun⟩ (.cons ?_ (.cons ?_ .nil))
  · refine ⟨⟨rfl, rfl⟩, fun i _ => bare i, bare _, ?_, fun _ _ _ _ i _ => bare i⟩
    rintro _ ⟨⟩ q -
    exact ⟨show 0 < 8 by decide, rfl⟩
  · refine ⟨⟨rfl, fun slot => by cases slot <;> rfl, rfl⟩, fun i _ => bare i, bare _, ?_,
      fun _ _ _ _ i _ => bare i⟩
    rintro _ ⟨⟩ q -
    cases q with
    | bindings => exact ⟨by decide, false, rfl⟩
    | paths slot => cases slot <;> exact ⟨by decide, false, rfl⟩

theorem eq_of_fileText_sample :
    ((fileText (usual 0) (.list (sampleValues 7))).alone sample).1 =
        ((fileText (usual 1) (.list (sampleValues 8))).alone sample).1 ∧
      sampleStatements = sampleStatements := by
  have bare (i : Identity) : sample.Bare i := fun name => rfl
  have same : ((fileText (usual 0) (.list (sampleValues 7))).alone sample).1 =
      ((fileText (usual 1) (.list (sampleValues 8))).alone sample).1 := by
    rw [alone_usual (bare _) (legible_sample 7), alone_usual (bare _) (legible_sample 8)]
  exact ⟨same, eq_of_fileText (bare _) (bare _) (legible_sample 7) (legible_sample 8)
    plain_sample plain_sample same⟩

end Script.Formatter

end NinjaFile
