import Worksheet.CommandLine.Arguments
import Worksheet.Settings.Basic
import Worksheet.Sheet.Edit

/-!
# A run of the command line

A run reads its arguments and its settings, does what it is asked for, and ends with a text for each
of the two output streams and an exit code: zero if all went well, one if the settings cannot be
loaded or a cell shows a fault, and two if something is wrong with the arguments.

A run does not touch files itself. What they hold is handed to it, and so are the reader for settings
and the log, which are no matter of the command line: a run has to do with any of them
(`Surroundings`).

The log shares the standard error with what the run itself has to say there. Warnings come while the
sheet is edited, and the run speaks when that is over, so the log is always in front.

## Main definitions

* `Surroundings`, `Output`: what goes into a run and what comes out;
* `evaluateAlone`, `showAssigned`: the two requests;
* `runCommandLine`.
-/

namespace Worksheet

/-- The files that a run may ask for. -/
structure Files where
  /-- The content of the file at a path, or the reason why it cannot be read. -/
  contentAt : String → Except String ByteArray
  /-- The path and the content of the user's own settings, if there are any. -/
  userSettings : Option (String × Except String ByteArray)

/-- What a run finds around it. -/
structure Surroundings where
  /-- The files. -/
  files : Files
  /-- The reader for documents with settings. -/
  read : DocumentReader
  /-- The log. -/
  log : Log

/-- What a run writes, and its exit code. -/
structure Output where
  /-- The text on the standard output. -/
  out : String
  /-- The text on the standard error. -/
  err : String
  /-- The exit code. -/
  code : Nat
deriving DecidableEq, Repr

/-- The output with the text of a log for these warnings. -/
def Output.logged (output : Output) (log : Log) (warnings : List Warning) : Output :=
  { output with err := log.text warnings ++ output.err }

/-! ### Help -/

/-- The lines of the help text. -/
def usageLines : List String :=
  ["Usage: gridcalc [OPTIONS] [CELL=TEXT ...]",
    "",
    "Arguments:",
    "  [CELL=TEXT ...]           Assign cells in order, then print each assigned cell",
    "                            (e.g. A1=10 'B1==A1*2')",
    "",
    "Options:",
    "  -c, --command <FORMULA>   Evaluate one formula in an empty sheet and print it",
    "  --config <FILE>           Load grid size from a TOML file",
    "  -h, --help                Print help"]

/-- Lines as a text. Every line is ended. -/
def unlines (lines : List String) : String :=
  String.join (lines.map (· ++ "\n"))

namespace Output

/-- The help text, and nothing else. -/
def usage (code : Nat) : Output := ⟨"", unlines usageLines, code⟩

/-- An error that is explained by the help text. -/
def misuse (m : Misuse) : Output :=
  ⟨"", unlines (("Error: " ++ m.message) :: usageLines), 2⟩

/-- What is written if there is no run. -/
def ofNoRun : NoRun → Output
  | .helpWanted => usage 0
  | .nothingWanted => usage 2
  | .misused m => misuse m

/-- An edit that is refused. -/
def refused (fault : EditFault) : Output :=
  ⟨"", unlines ["Error: " ++ fault.message], 1⟩

end Output

/-! ### Settings -/

/-- The settings of a file, or the path with what is wrong. -/
def settingsAt (read : DocumentReader) (path : String) (content : Except String ByteArray) :
    Except (String × SettingsFault) Settings :=
  let settings := match content with
    | .ok content => Settings.ofFile read path content
    | .error reason => .error (.unreadable reason)
  settings.mapError fun fault => (path, fault)

/-- The settings of a run: those of the file that it names, else the user's own, else the standard
ones. -/
def loadSettings (around : Surroundings) (path? : Option String) :
    Except (String × SettingsFault) Settings :=
  match path?, around.files.userSettings with
  | some path, _ => settingsAt around.read path (around.files.contentAt path)
  | none, some (path, content) => settingsAt around.read path content
  | none, none => .ok .standard

/-! ### One formula -/

/-- The text of a formula, with the equals sign that may have been left out. -/
def markFormula (formula : String) : String :=
  if Formula.isMarked formula then formula else "=" ++ formula

/-- Shows a cell by itself. -/
def showCell (sheet : Sheet) (a : Address) : Output :=
  match sheet.valueOf a with
  | .fault f => ⟨unlines [f.describe], "", 1⟩
  | _ => ⟨unlines [sheet.displayOf a], "", 0⟩

/-- Evaluates a formula in the first cell of an empty sheet and shows that cell. -/
def evaluateAlone (log : Log) (grid : Grid) (formula : String) : Output :=
  let first : Address := ⟨0, 0⟩
  let edited := (Sheet.empty grid).write first (markFormula formula)
  let output : Output := match edited.refusal with
    | some fault => .refused fault
    | none => showCell edited.sheet first
  output.logged log edited.warnings

/-! ### Assignments -/

/-- The name of the last cell of a grid. -/
def lastName (grid : Grid) : String :=
  grid.lastColumnLetter.toString ++ toString grid.rows

/-- How far a run with assignments has got. -/
structure Assigning where
  /-- The sheet. -/
  sheet : Sheet
  /-- The cells that were assigned. -/
  assigned : AddressSet
  /-- What the log was told. -/
  warnings : List Warning

/-- Why a run with assignments goes no further. -/
inductive AssignmentFault where
  /-- A name is that of no cell. -/
  | misused (m : Misuse)
  /-- An edit is refused. -/
  | refused (fault : EditFault)

namespace Assigning

/-- Before the first assignment. -/
def start (grid : Grid) : Assigning := ⟨.empty grid, ∅, []⟩

/-- Makes assignments in order. -/
def assignAll (done : Assigning) : List (String × String) → Assigning × Option AssignmentFault
  | [] => (done, none)
  | (name, text) :: rest =>
    match done.sheet.grid.parse? name with
    | none => (done, some (.misused (.invalidName name (lastName done.sheet.grid))))
    | some a =>
      let edited := done.sheet.write a text
      match edited.refusal with
      | some fault =>
        (⟨edited.sheet, done.assigned, done.warnings ++ edited.warnings⟩, some (.refused fault))
      | none =>
        assignAll ⟨edited.sheet, done.assigned.insert a, done.warnings ++ edited.warnings⟩ rest

end Assigning

/-- The line of the standard output for a cell. -/
def outLine (sheet : Sheet) (a : Address) : String :=
  a.name ++ "\t" ++ sheet.displayOf a

/-- The line of the standard error for a cell, if it shows a fault. -/
def errLine? (sheet : Sheet) (a : Address) : Option String :=
  (sheet.valueOf a).fault?.map fun f => a.name ++ ": " ++ f.message

/-- Shows cells of a sheet. -/
def report (sheet : Sheet) (cells : List Address) : Output :=
  let errLines := cells.filterMap (errLine? sheet)
  ⟨unlines (cells.map (outLine sheet)), unlines errLines, if errLines.isEmpty then 0 else 1⟩

/-- Makes assignments in an empty sheet and shows the cells that were assigned. -/
def showAssigned (log : Log) (grid : Grid) (assignments : List (String × String)) : Output :=
  let (done, fault?) := (Assigning.start grid).assignAll assignments
  let output : Output := match fault? with
    | none => report done.sheet done.assigned.toList
    | some (.misused m) => .misuse m
    | some (.refused fault) => .refused fault
  output.logged log done.warnings

/-! ### Whole runs -/

/-- Does what is asked for in a grid. -/
def Request.run (log : Log) (grid : Grid) : Request → Output
  | evaluate formula => evaluateAlone log grid formula
  | assign assignments => showAssigned log grid assignments

/-- A run with the given arguments. -/
def runCommandLine (around : Surroundings) (arguments : List String) : Output :=
  match Invocation.ofArguments arguments with
  | .error reason => .ofNoRun reason
  | .ok invocation =>
    match loadSettings around invocation.settingsPath with
    | .error (path, fault) =>
      ⟨"", unlines ["Error: failed to load config " ++ path ++ ": " ++ fault.message], 1⟩
    | .ok settings => invocation.request.run around.log settings.grid

end Worksheet
