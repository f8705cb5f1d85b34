import Worksheet.Address

/-!
# The log

What there is to say beside the answers to a question goes to a log, as a warning: that a circular
reference was found, or that an edge was passed over. A warning is a message and some facts under
names.

Whether warnings are written at all is up to the log, and so is the form in which they are. It depends
on the time, and on the surroundings, which may also ask a log for more than warnings. So nothing is
assumed of what a log writes. All of it comes before anything else that is written.

## Main definitions

* `Warning`, and the two kinds of them: `Warning.circular`, `Warning.ignoredEdge`;
* `Log`, `Log.off`.
-/

namespace Worksheet

/-- The names of cells, one leading to the next. -/
def pathText (cells : List Address) : String :=
  String.intercalate " -> " (cells.map Address.name)

/-- Something to be noted in the log. -/
structure Warning where
  /-- What has happened. -/
  message : String
  /-- The facts about it, each under a name. -/
  fields : List (String × String)
deriving DecidableEq, Repr

namespace Warning

/-- The cells of a cycle have been found, and are marked. -/
def circular (cycle : List Address) : Warning :=
  ⟨"circular reference", [("cycle", pathText cycle)]⟩

/-- An edge has been passed over, since one of its ends is not in the grid. -/
def ignoredEdge (dependent precedent : Address) : Warning :=
  ⟨"ignoring edge outside grid bounds",
    [("dependent", dependent.name), ("dependency", precedent.name)]⟩

end Warning

/-- A log is what it writes on the standard error in the course of a run that gives these warnings, one
after the other. -/
structure Log where
  text : List Warning → String

/-- The log that is turned off. -/
def Log.off : Log := ⟨fun _ => ""⟩

end Worksheet
