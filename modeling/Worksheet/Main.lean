import Worksheet.CommandLine.Run
import Worksheet.Settings.Document

/-!
# The program

The program fetches the files that a run asks for, leaves the run to `runCommandLine`, and passes on
what it writes. The user's own settings are looked for in the directory for configuration files that
the environment names. Warnings are logged one to a line, unless the environment asks for less.
-/

namespace Worksheet

/-- The content of a file, or the reason why it cannot be read. -/
def readContent (path : String) : IO (Except String ByteArray) := do
  try
    return .ok (← IO.FS.readBinFile path)
  catch e =>
    return .error (toString e)

/-- The content of a file that need not exist. -/
def readIfPresent (path : String) : IO (Option (Except String ByteArray)) := do
  try
    return some (.ok (← IO.FS.readBinFile path))
  catch e =>
    match e with
    | .noFileOrDirectory .. => return none
    | _ => return some (.error (toString e))

/-- The directory for configuration files: the one that is named as such, else the usual place in
the home directory. -/
def configDirectory : IO (Option String) := do
  match ← IO.getEnv "XDG_CONFIG_HOME", ← IO.getEnv "HOME" with
  | some directory, home =>
    if directory.startsWith "/" then return some directory
    else return home.map (· ++ "/.config")
  | none, home => return home.map (· ++ "/.config")

/-- The user's own settings. -/
def readUserSettings : IO (Option (String × Except String ByteArray)) := do
  match ← configDirectory with
  | none => return none
  | some directory =>
    let path := directory ++ "/gridcalc/config.toml"
    return (← readIfPresent path).map fun content => (path, content)

/-- The files that the arguments make necessary. -/
def readFiles (arguments : List String) : IO Files := do
  match Invocation.ofArguments arguments with
  | .ok ⟨_, some path⟩ =>
    let content ← readContent path
    return ⟨fun _ => content, none⟩
  | .ok ⟨_, none⟩ => return ⟨fun _ => .error "no file was asked for", ← readUserSettings⟩
  | .error _ => return ⟨fun _ => .error "no file was asked for", none⟩

/-- A warning as a line of a log. -/
def warningLine (warning : Warning) : String :=
  let fields := warning.fields.map fun (name, value) => " " ++ name ++ "=" ++ value
  "WARN " ++ warning.message ++ String.join fields

/-- The log that the environment asks for. -/
def chooseLog : IO Log := do
  match (← IO.getEnv "RUST_LOG").map String.toLower with
  | some "" | some "off" | some "error" => return .off
  | _ => return ⟨fun warnings => unlines (warnings.map warningLine)⟩

/-- Everything that a run with these arguments has to do with. -/
def readSurroundings (arguments : List String) : IO Surroundings := do
  return ⟨← readFiles arguments, Settings.readDocument, ← chooseLog⟩

end Worksheet

/-- Runs the command line. -/
def main (arguments : List String) : IO UInt32 := do
  let output := Worksheet.runCommandLine (← Worksheet.readSurroundings arguments) arguments
  IO.print output.out
  IO.eprint output.err
  return output.code.toUInt32
