import ServiceContract.FileTree
import ServiceContract.Logging

/-!
# The world of a run

A run depends on its arguments and on what it finds: files, standard input, and a few variables.
-/

namespace ServiceContract

/-- What a run finds. -/
structure World where
  tree : FileTree
  /-- The text on standard input; none if it cannot be read as text. -/
  standardInput : Option String
  /-- The directory for the settings of the user's programs. -/
  settingsDirectory : Option Path
  /-- The settings file that the environment names. -/
  settingsFile : Option String
  logVariables : LogVariables
  deriving DecidableEq, Repr

end ServiceContract
