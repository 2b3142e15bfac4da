import ServiceContract.Run

/-!
# The program

Looks at the files a run may need, runs, and then writes what the run says: new files, what is
printed, and the exit code.
-/

namespace ServiceContract.Program

/-- What stands at a path. -/
def look (text : String) : IO (Option Entry) := do
  try
    let bytes ← IO.FS.readBinFile text
    return some ((String.fromUTF8? bytes).elim .binary .text)
  catch
    | .noFileOrDirectory .. => return none
    | .inappropriateType .. => return some .directory
    | _ => return some .binary

/-- Enters what stands along the parts of a path, up to the first one that is no directory. -/
def follow (tree : FileTree) (place : Place) (text : String) : List (List Char) → IO FileTree
  | [] => return tree
  | part :: parts => do
    let place := place.enter part
    let text := text ++ String.ofList part
    if place.isGiven then follow tree place (text ++ "/") parts
    else
      match ← look text with
      | none => return tree
      | some .directory => follow (tree.put place .directory) place (text ++ "/") parts
      | some entry => return tree.put place entry

/-- The part of the file system that some paths lead through. -/
def snapshot (paths : List Path) : IO FileTree :=
  paths.foldlM (fun tree path =>
    follow tree (FileTree.startOf path) "" (Path.splitSlashes path.text.toList [])) .empty

/-- Makes a change to a file tree in the file system. -/
def store (old new : FileTree) : IO Unit :=
  new.entries.forM fun (place, entry) => do
    let names := String.intercalate "/" place.names
    let text := if place.absolute then "/" ++ names else names
    if old.at? place ≠ some entry then
      match entry with
      | .directory => IO.FS.createDirAll text
      | .text content =>
        IO.FS.createDirAll
          ((if place.absolute then "/" else "./") ++ String.intercalate "/" place.names.dropLast)
        IO.FS.writeFile text content
      | .binary => return ()

/-- The directory for the settings of the user's programs. -/
def settingsDirectory : IO (Option Path) := do
  match ← IO.getEnv "XDG_CONFIG_HOME" with
  | some text => if text.startsWith "/" then return some ⟨text⟩
  | none => pure ()
  return (← IO.getEnv "HOME").map fun home => ⟨home ++ "/.config"⟩

/-- Standard input, if a run reads it. -/
def input (invocation : Invocation) : IO (Option String) := do
  if invocation.command.paths.any (·.same .standardInput) then
    return String.fromUTF8? (← (← IO.getStdin).readBinToEnd)
  else return some ""

def usage : String :=
  "Usage: wc-connect [-v|-q] [-c FILE] [-o FORMAT] [--no-color] COMMAND\n\n"
    ++ "Commands:\n"
    ++ "  validate [--all-groups|-g GROUP] [--fail-fast] [--detailed] SERVICES...\n"
    ++ "  codes\n"
    ++ "  config init [--path FILE] [--force]\n"
    ++ "  config show [-f FORMAT]\n"
    ++ "  config get KEY\n"
    ++ "  config path\n"
    ++ "  completions SHELL\n"

/-- Says why a command line names no run. -/
def stopped (stop : CommandLine.Stop) : IO UInt32 := do
  match stop with
  | .help => IO.print usage
  | .version => IO.println "wc-connect 0.1.0"
  | _ => IO.eprint usage
  return stop.exitCode.toUInt32

/-- Says what a run leaves behind. -/
def finish (outcome : Outcome) : IO UInt32 := do
  if let some logging := outcome.logging then
    IO.eprint (LogWarning.text logging.warnings)
    if let some fault := logging.fault then
      IO.eprintln ("Failed to initialize logging: " ++ (Failure.settings fault).message)
  IO.print outcome.output
  if let some failure := outcome.failure then
    IO.eprintln (failure.report outcome.color)
    if failure.showsHelp then IO.eprintln "\nFor more information, try '--help'"
  return outcome.exitCode.toUInt32

/-- Runs a command. -/
def run (invocation : Invocation) (named : Option String) : IO UInt32 := do
  let directory ← settingsDirectory
  let tree ← snapshot (invocation.paths directory)
  let logVariables : LogVariables := ⟨← IO.getEnv "RUST_LOG", ← IO.getEnv "WC_CONNECT_LOG_FORMAT"⟩
  let world : World := ⟨tree, ← input invocation, directory, named, logVariables⟩
  let outcome := invocation.run (← (← IO.getStdout).isTty) world
  try
    store tree outcome.tree
  catch e =>
    return ← finish { outcome with output := "", failure := some (.io (toString e)) }
  finish outcome

end ServiceContract.Program

open ServiceContract in
def main (words : List String) : IO UInt32 := do
  let named ← IO.getEnv "WC_CONNECT_CONFIG"
  match Invocation.read named words with
  | .error stop => Program.stopped stop
  | .ok invocation => Program.run invocation named
