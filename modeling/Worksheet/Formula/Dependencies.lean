import Worksheet.Formula.Basic

/-!
# The cells that a formula reads

`Formula.dependencies` lists the cells whose values a formula may need: those it names, and those of
the rectangles it names. They come in the order in which the formula names them, a rectangle row by
row, and each cell is listed once, at the place where it is met first.

The list is gathered in one pass that carries the cells met so far twice, as a list and as a set.

## Main definitions

* `Gathered`: the cells met so far;
* `Formula.dependencies`.
-/

namespace Worksheet

/-- The cells met so far, each once. -/
structure Gathered where
  /-- The cells, the one met last in front. -/
  latest : List Address
  /-- The same cells as a set. -/
  seen : AddressSet

namespace Gathered

/-- No cell has been met. -/
def empty : Gathered := ⟨[], ∅⟩

/-- One more cell is met. -/
def add (g : Gathered) (a : Address) : Gathered :=
  if g.seen.contains a then g else ⟨a :: g.latest, g.seen.insert a⟩

/-- The cells in the order in which they were met. -/
def toList (g : Gathered) : List Address :=
  g.latest.reverse

end Gathered

namespace Formula

mutual

/-- Meets the cells of a formula from left to right. -/
def gather : Formula → Gathered → Gathered
  | number _, g => g
  | cell a, g => g.add a
  | range first last, g => (Address.rectangle first last).foldl Gathered.add g
  | binary _ left right, g => right.gather (left.gather g)
  | call _ arguments, g => gatherAll arguments g

/-- Meets the cells of several formulas, one formula after the other. -/
def gatherAll : List Formula → Gathered → Gathered
  | [], g => g
  | formula :: formulas, g => gatherAll formulas (formula.gather g)

end

/-- The cells that the formula reads, each once, in the order in which they are met. -/
def dependencies (formula : Formula) : List Address :=
  (formula.gather .empty).toList

end Formula

end Worksheet
