/-!
# Arguments of the command line

The arguments ask for one of two things: to evaluate one formula in an empty sheet, or to make
assignments one after the other and show the cells that were assigned. They may name a file with
settings. The arguments are read from left to right, and the first one that is wrong, or asks for
help, decides the matter.

## Main definitions

* `Request`, `Invocation`: what the arguments ask for;
* `Misuse`: what can be wrong with them;
* `Invocation.ofArguments`.
-/

namespace Worksheet

/-- What a run is to do. -/
inductive Request where
  /-- Evaluate one formula in an empty sheet. -/
  | evaluate (formula : String)
  /-- Assign texts to names, in this order, and show the cells. -/
  | assign (assignments : List (String × String))
deriving DecidableEq, Repr

/-- What the arguments say. -/
structure Invocation where
  /-- What is to be done. -/
  request : Request
  /-- The file with the settings, if one is named. -/
  settingsPath : Option String
deriving DecidableEq, Repr

/-- What can be wrong with the arguments. -/
inductive Misuse where
  /-- The option for a formula is the last argument. -/
  | missingFormula
  /-- The option for a file is the last argument. -/
  | missingPath
  /-- There is no such option. -/
  | unknownOption (argument : String)
  /-- The argument has no equals sign, or nothing before it. -/
  | noAssignment (argument : String)
  /-- A formula and assignments are given at once. -/
  | mixedRequests
  /-- A name stands for no cell of a sheet whose last cell has the given name. -/
  | invalidName (name : String) (last : String)
deriving DecidableEq, Repr

/-- What is wrong, in words. -/
def Misuse.message : Misuse → String
  | missingFormula => "--command requires a formula"
  | missingPath => "--config requires a file path"
  | unknownOption argument => "Unknown option: " ++ argument
  | noAssignment argument => "Expected CELL=TEXT, got: " ++ argument
  | mixedRequests => "--command cannot be combined with cell assignments"
  | invalidName name last => "Invalid cell reference: " ++ name ++ " (grid is A1:" ++ last ++ ")"

/-- Why arguments lead to no run. -/
inductive NoRun where
  /-- They ask for help. -/
  | helpWanted
  /-- They ask for nothing. -/
  | nothingWanted
  /-- Something is wrong with them. -/
  | misused (misuse : Misuse)
deriving DecidableEq, Repr

/-! ### Reading the arguments -/

/-- The name and the text of an assignment, which the first equals sign separates. -/
def splitAssignment? (argument : String) : Option (String × String) :=
  let chars := argument.toList
  match chars.takeWhile (· != '='), chars.dropWhile (· != '=') with
  | c :: name, '=' :: text => some (String.ofList (c :: name), String.ofList text)
  | _, _ => none

/-- What the arguments have given so far. -/
structure Given where
  /-- The formula, the last one if there are several. -/
  formula : Option String
  /-- The file with the settings, the last one if there are several. -/
  settingsPath : Option String
  /-- The assignments, the last one first. -/
  assignments : List (String × String)

namespace Given

/-- Nothing is given. -/
def nothing : Given := ⟨none, none, []⟩

/-- Reads arguments from left to right. -/
def addArguments (given : Given) : List String → Except NoRun Given
  | [] => .ok given
  | argument :: rest =>
    if argument = "-h" ∨ argument = "--help" then .error .helpWanted
    else if argument = "-c" ∨ argument = "--command" then
      match rest with
      | [] => .error (.misused .missingFormula)
      | formula :: rest' => addArguments { given with formula := some formula } rest'
    else if argument = "--config" then
      match rest with
      | [] => .error (.misused .missingPath)
      | path :: rest' => addArguments { given with settingsPath := some path } rest'
    else if argument.toList.head? = some '-' then .error (.misused (.unknownOption argument))
    else
      match splitAssignment? argument with
      | some assignment =>
        addArguments { given with assignments := assignment :: given.assignments } rest
      | none => .error (.misused (.noAssignment argument))

/-- The run that is asked for. -/
def toInvocation (given : Given) : Except NoRun Invocation :=
  match given.formula, given.assignments with
  | some _, _ :: _ => .error (.misused .mixedRequests)
  | some formula, [] => .ok ⟨.evaluate formula, given.settingsPath⟩
  | none, _ :: _ => .ok ⟨.assign given.assignments.reverse, given.settingsPath⟩
  | none, [] => .error .nothingWanted

end Given

/-- What the arguments ask for. -/
def Invocation.ofArguments (arguments : List String) : Except NoRun Invocation := do
  (← Given.nothing.addArguments arguments).toInvocation

end Worksheet
