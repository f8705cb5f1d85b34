import Worksheet.CommandLine.Run

/-!
# Well-formed command lines

A command line that is well-formed asks for one thing. It may name a file with settings, and then has
either the option for a formula or one assignment or more. This module says what such arguments look
like and that they are read as what they ask for, so that a run with them comes down to what is done
in the grid of the settings.

An assignment is read back because its name has no equals sign: the first one in the argument is then
the one between name and text, whatever the text. A formula is taken as it stands, even if it looks
like an option.

The settings of a run are those that the reader finds in the file that is named, or else in the user's
own, and without any file the standard ones (`Surroundings.Configures`). Of the reader no more is
assumed than what it makes of that one file.

## Main definitions

* `settingsArguments`, `assignmentArgument` — arguments as they are written
* `IsAssignable` — the names that an assignment can be written with
* `ContainsSettings`, `Surroundings.Configures` — where settings come from

## Main results

* `Invocation.ofArguments_formula`, `Invocation.ofArguments_assignments` — what they ask for
* `loadSettings_eq_ok_iff` — the settings that a run has
* `runCommandLine_formula`, `runCommandLine_assignments` — what is done then
-/

namespace Worksheet

/-! ### Arguments as they are written -/

/-- The arguments that name a file with settings, if there is one. -/
def settingsArguments : Option String → List String
  | some path => ["--config", path]
  | none => []

/-- The argument for an assignment. -/
def assignmentArgument (assignment : String × String) : String :=
  assignment.1 ++ "=" ++ assignment.2

/-- The name can stand in an assignment: the first equals sign comes after it, and it is not taken
for an option. -/
structure IsAssignable (name : String) : Prop where
  ne_empty : name ≠ ""
  notMem : '=' ∉ name.toList
  no_dash : name.toList.head? ≠ some '-'

instance : DecidablePred IsAssignable := fun name =>
  decidable_of_iff (name ≠ "" ∧ '=' ∉ name.toList ∧ name.toList.head? ≠ some '-')
    ⟨fun ⟨hne, hmem, hdash⟩ => ⟨hne, hmem, hdash⟩, fun h => ⟨h.ne_empty, h.notMem, h.no_dash⟩⟩

variable {name text path formula argument : String} {path? : Option String} {rest : List String}
  {assignment : String × String} {assignments : List (String × String)} {given : Given}
  {around : Surroundings} {settings : Settings}

theorem toList_assignmentArgument (assignment : String × String) :
    (assignmentArgument assignment).toList =
      assignment.1.toList ++ '=' :: assignment.2.toList := by
  simp only [assignmentArgument, String.toList_append, List.append_assoc]
  rfl

theorem IsAssignable.exists_cons (h : IsAssignable name) : ∃ c cs, name.toList = c :: cs :=
  List.exists_cons_of_ne_nil fun hnil => h.ne_empty (String.toList_eq_nil_iff.mp hnil)

/-- **An assignment is split at the first equals sign**, and the name has none. -/
theorem splitAssignment?_assignmentArgument (h : IsAssignable assignment.1) :
    splitAssignment? (assignmentArgument assignment) = some assignment := by
  obtain ⟨c, cs, hname⟩ := h.exists_cons
  have hno : ∀ d ∈ assignment.1.toList, (d != '=') = true := by
    intro d hd
    rw [bne_iff_ne]
    rintro rfl
    exact h.notMem hd
  have htake : (assignmentArgument assignment).toList.takeWhile (· != '=') = c :: cs := by
    rw [toList_assignmentArgument, List.takeWhile_append_of_pos hno, hname,
      List.takeWhile_cons_of_neg (by decide), List.append_nil]
  have hdrop : (assignmentArgument assignment).toList.dropWhile (· != '=') =
      '=' :: assignment.2.toList := by
    rw [toList_assignmentArgument, List.dropWhile_append_of_pos hno,
      List.dropWhile_cons_of_neg (by decide)]
  simp only [splitAssignment?, htake, hdrop]
  rw [← hname, String.ofList_toList, String.ofList_toList]

/-- An assignment does not look like an option. -/
theorem IsAssignable.head?_ne (h : IsAssignable assignment.1) :
    (assignmentArgument assignment).toList.head? ≠ some '-' := by
  obtain ⟨c, cs, hname⟩ := h.exists_cons
  rw [toList_assignmentArgument, hname]
  have hdash := h.no_dash
  rwa [hname] at hdash

/-! ### How they are read -/

namespace Given

theorem addArguments_config :
    given.addArguments ("--config" :: path :: rest) =
      { given with settingsPath := some path }.addArguments rest := by
  rw [addArguments, if_neg (by decide), if_neg (by decide), if_pos rfl]

theorem addArguments_formula :
    given.addArguments ("-c" :: formula :: rest) =
      { given with formula := some formula }.addArguments rest := by
  rw [addArguments, if_neg (by decide), if_pos (.inl rfl)]

theorem addArguments_assignment (h : IsAssignable assignment.1) :
    given.addArguments (assignmentArgument assignment :: rest) =
      { given with assignments := assignment :: given.assignments }.addArguments rest := by
  have hne : ∀ option : String, option.toList.head? = some '-' →
      assignmentArgument assignment ≠ option := by
    rintro option hoption rfl
    exact h.head?_ne hoption
  have hhelp := not_or.mpr ⟨hne "-h" rfl, hne "--help" rfl⟩
  have hformula := not_or.mpr ⟨hne "-c" rfl, hne "--command" rfl⟩
  -- whether anything follows matters to the options only
  rw [addArguments.eq_def]
  simp only [if_neg hhelp, if_neg hformula, if_neg (hne "--config" rfl), if_neg h.head?_ne,
    splitAssignment?_assignmentArgument h]

/-- The settings that are named come first, and nothing else is changed by them. -/
theorem addArguments_settings (path? : Option String) (rest : List String) :
    nothing.addArguments (settingsArguments path? ++ rest) =
      { nothing with settingsPath := path? }.addArguments rest := by
  cases path? with
  | none => rfl
  | some path => exact addArguments_config

/-- Assignments are gathered, the last one in front. -/
theorem addArguments_assignments (h : ∀ x ∈ assignments, IsAssignable x.1) (given : Given) :
    given.addArguments (assignments.map assignmentArgument) =
      .ok { given with assignments := assignments.reverse ++ given.assignments } := by
  induction assignments generalizing given with
  | nil => rfl
  | cons x rest ih =>
    obtain ⟨hx, hrest⟩ := List.forall_mem_cons.mp h
    rw [List.map_cons, addArguments_assignment hx, ih hrest, List.reverse_cons, List.append_assoc,
      List.singleton_append]

end Given

namespace Invocation

theorem ofArguments_formula (path? : Option String) (formula : String) :
    ofArguments (settingsArguments path? ++ ["-c", formula]) =
      .ok ⟨.evaluate formula, path?⟩ := by
  rw [ofArguments, Given.addArguments_settings, Given.addArguments_formula]
  rfl

theorem ofArguments_assignments (path? : Option String) (hne : assignments ≠ [])
    (h : ∀ x ∈ assignments, IsAssignable x.1) :
    ofArguments (settingsArguments path? ++ assignments.map assignmentArgument) =
      .ok ⟨.assign assignments, path?⟩ := by
  have hsome : assignments.reverse ≠ [] := fun hnil => hne (List.reverse_eq_nil_iff.mp hnil)
  obtain ⟨x, xs, hreverse⟩ := List.exists_cons_of_ne_nil hsome
  rw [ofArguments, Given.addArguments_settings, Given.addArguments_assignments h]
  show Given.toInvocation ⟨none, path?, assignments.reverse ++ []⟩ = _
  rw [List.append_nil, hreverse]
  show Except.ok (Invocation.mk (.assign (x :: xs).reverse) path?) = _
  rw [← hreverse, List.reverse_reverse]

end Invocation

/-! ### Settings -/

/-- A file with this content has these settings: it is not too large, it is a text, and the reader finds
the numbers of columns and rows in it. Those that are not set are the standard ones. -/
def ContainsSettings (read : DocumentReader) (content : ByteArray) (settings : Settings) : Prop :=
  content.size ≤ maxFileSize ∧ ∃ text assigned, String.fromUTF8? content = some text ∧
    read text = .ok assigned ∧
    assigned.columns.getD Settings.standard.columns = settings.columns ∧
    assigned.rows.getD Settings.standard.rows = settings.rows

/-- A run that is given this path, or none, has these settings. -/
inductive Surroundings.Configures (around : Surroundings) : Option String → Settings → Prop
  /-- The file at the path has them. -/
  | named {path : String} {content : ByteArray} {settings : Settings}
      (hfile : around.files.contentAt path = .ok content)
      (hcontent : ContainsSettings around.read content settings) :
      Configures around (some path) settings
  /-- No path is given, and the user's own settings are these. -/
  | own {path : String} {content : ByteArray} {settings : Settings}
      (hfile : around.files.userSettings = some (path, .ok content))
      (hcontent : ContainsSettings around.read content settings) :
      Configures around none settings
  /-- There are no others. -/
  | standard (hnone : around.files.userSettings = none) : Configures around none .standard

theorem Settings.ofSize_eq_ok_iff {columns rows : Nat} :
    ofSize columns rows = .ok settings ↔ columns = settings.columns ∧ rows = settings.rows := by
  constructor
  · intro h
    unfold ofSize at h
    split at h
    · split at h
      · cases h
        exact ⟨rfl, rfl⟩
      · cases h
    · cases h
  · rintro ⟨rfl, rfl⟩
    rw [ofSize, dif_pos settings.columns_range, dif_pos settings.rows_range]

theorem Settings.ofFile_eq_ok_iff (path : String) {read : DocumentReader} {content : ByteArray} :
    ofFile read path content = .ok settings ↔ ContainsSettings read content settings := by
  rw [ofFile, ContainsSettings]
  split
  · rename_i hlarge
    exact iff_of_false nofun fun h => Nat.not_le_of_lt hlarge h.1
  · rename_i hsize
    have hsize := Nat.le_of_not_lt hsize
    cases String.fromUTF8? content with
    | none => simp [hsize]
    | some text =>
      cases hread : read text with
      | error reason => simp [hsize, ofDocument, hread]
      | ok assigned => simp [hsize, ofDocument, hread, ofSize_eq_ok_iff]

/-- What is made of a fault does not matter to a result. -/
theorem mapError_eq_ok_iff {α ε δ : Type} {settings : Except ε α} {f : ε → δ} {a : α} :
    settings.mapError f = .ok a ↔ settings = .ok a := by
  cases settings with
  | error fault => exact iff_of_false nofun nofun
  | ok b =>
    have hkept : (Except.ok b : Except ε α).mapError f = .ok b := rfl
    rw [hkept, Except.ok.injEq, Except.ok.injEq]

theorem settingsAt_eq_ok_iff {read : DocumentReader} {content? : Except String ByteArray} :
    settingsAt read path content? = .ok settings ↔
      ∃ content, content? = .ok content ∧ ContainsSettings read content settings := by
  cases content? with
  | error reason => exact iff_of_false nofun (by simp)
  | ok content =>
    have hfile : settingsAt read path (.ok content) =
        (Settings.ofFile read path content).mapError fun fault => (path, fault) := rfl
    rw [hfile, mapError_eq_ok_iff, Settings.ofFile_eq_ok_iff]
    simp

/-- **The settings of a run** are those of the file that it names, else the user's own, else the standard
ones. -/
theorem loadSettings_eq_ok_iff :
    loadSettings around path? = .ok settings ↔ around.Configures path? settings := by
  cases path? with
  | some path =>
    rw [loadSettings, settingsAt_eq_ok_iff]
    constructor
    · rintro ⟨content, hfile, hcontent⟩
      exact .named hfile hcontent
    · rintro ⟨hfile, hcontent⟩
      exact ⟨_, hfile, hcontent⟩
  | none =>
    cases hown : around.files.userSettings with
    | none =>
      simp only [loadSettings, hown, Except.ok.injEq]
      constructor
      · rintro rfl
        exact .standard hown
      · rintro (_ | ⟨hfile, -⟩ | _)
        · cases hown.symm.trans hfile
        · rfl
    | some file =>
      obtain ⟨path, content?⟩ := file
      simp only [loadSettings, hown, settingsAt_eq_ok_iff]
      constructor
      · rintro ⟨content, rfl, hcontent⟩
        exact .own hown hcontent
      · rintro (_ | ⟨hfile, hcontent⟩ | hnone)
        · cases hown.symm.trans hfile
          exact ⟨_, rfl, hcontent⟩
        · cases hown.symm.trans hnone

/-! ### What is done -/

/-- The run does what is asked for, in the grid of its settings. -/
theorem runCommandLine_eq {arguments : List String} {request : Request}
    (harguments : Invocation.ofArguments arguments = .ok ⟨request, path?⟩)
    (hsettings : around.Configures path? settings) :
    runCommandLine around arguments = request.run around.log settings.grid := by
  simp only [runCommandLine, harguments, loadSettings_eq_ok_iff.mpr hsettings]

theorem runCommandLine_formula (hsettings : around.Configures path? settings) (formula : String) :
    runCommandLine around (settingsArguments path? ++ ["-c", formula]) =
      evaluateAlone around.log settings.grid formula :=
  runCommandLine_eq (Invocation.ofArguments_formula path? formula) hsettings

theorem runCommandLine_assignments (hsettings : around.Configures path? settings)
    (hne : assignments ≠ []) (h : ∀ x ∈ assignments, IsAssignable x.1) :
    runCommandLine around (settingsArguments path? ++ assignments.map assignmentArgument) =
      showAssigned around.log settings.grid assignments :=
  runCommandLine_eq (Invocation.ofArguments_assignments path? hne h) hsettings

end Worksheet
