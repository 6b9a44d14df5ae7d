/-!
# Configuration

Settings with defaults.  The defaults decide which settings there are and in which
order; of what is given, everything else is ignored.
-/

namespace NinjaFile.Configuration

/-- The default settings with the given values in their place. -/
def resolve (given defaults : List (String × α)) : List (String × α) :=
  defaults.map fun (key, value) => (key, (given.lookup key).getD value)

@[simp] theorem map_fst_resolve (given defaults : List (String × α)) :
    (resolve given defaults).map (·.1) = defaults.map (·.1) := by
  simp [resolve, Function.comp_def]

/-- The value of a setting. -/
def value (settings : List (String × α)) (key : String) (fallback : α) : α :=
  (settings.lookup key).getD fallback

end NinjaFile.Configuration
