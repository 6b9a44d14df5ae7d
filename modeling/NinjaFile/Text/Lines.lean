/-!
# Lines

A text falls into lines at its newlines; the newline behind the last line may be
missing.
-/

namespace NinjaFile.Text

/-- `current` holds the characters of the line at hand, last one first. -/
def splitLines (current : List Char) : List Char → List (List Char)
  | [] => if current.isEmpty then [] else [current.reverse]
  | c :: rest =>
      if c = '\n' then current.reverse :: splitLines [] rest
      else splitLines (c :: current) rest

def lines (text : String) : List String :=
  (splitLines [] text.toList).map String.ofList

end NinjaFile.Text
