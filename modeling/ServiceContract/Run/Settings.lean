import ServiceContract.Invocation
import ServiceContract.Run.Deed
import ServiceContract.Text.Blank
import ServiceContract.World

/-!
# Working on the settings

A new settings file holds the defaults, and it replaces a file only on request. Settings are shown
as a file would hold them, without the blanks at its end.
-/

namespace ServiceContract

namespace SettingsAction

/-- What is shown for the settings of a run that no file decides. -/
def noFile : String := "none (using built-in defaults)"

/-- Writes a new settings file. -/
def runInit (target : Path) (force : Bool) (tree : FileTree) : Deed :=
  if tree.has target && !force then .failed tree (.settings (.alreadyThere target))
  else
    match Settings.default.save tree target with
    | (tree, .ok ()) => .told tree [.success ("✓ Created config at " ++ target.text)]
    | (tree, .error failure) => .failed tree failure

/-- Works on the settings of a run, given the file that was named for it. -/
def run (action : SettingsAction) (settings : Settings) (named : Option Path) (world : World) :
    Deed :=
  match action with
  | .init target force => runInit target force world.tree
  | .show format => .told world.tree [.line (Text.trimEnd (settings.render format))]
  | .get key =>
    match settings.value key with
    | .ok text => .told world.tree [.line text]
    | .error failure => .failed world.tree failure
  | .path =>
    let source := Settings.source? world.tree world.settingsDirectory named
    .told world.tree [.line (source.elim noFile Path.text)]

end SettingsAction

end ServiceContract
