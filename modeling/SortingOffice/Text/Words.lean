import Std.Data.ExtTreeSet
import SortingOffice.Text.Blank

/-!
# Sets of words

A set of strings, kept in the order of their code points, and its written form as one line with
commas between the members.

* `Words`: the sets.
* `Words.ofLine`, `Words.toLine`: reading and writing a line.
-/

namespace SortingOffice

/-- A finite set of strings. -/
abbrev Words := Std.ExtTreeSet String

namespace Words

/-- The pieces between the commas of a text, trimmed, without the empty ones. -/
def pieces (cs : List Char) : List (List Char) :=
  ((cs.splitOn ',').map Text.trim).filter fun piece => !piece.isEmpty

/-- The set of the trimmed pieces between the commas of a line. Empty pieces do not count. -/
def ofLine (line : String) : Words := .ofList ((pieces line.toList).map String.ofList)

/-- The members in order, with a comma and a space between each two of them. -/
def toLine (words : Words) : String :=
  String.ofList ([',', ' '].intercalate (words.toList.map String.toList))

/-- Pieces are trimmed, empty ones are dropped, and equal ones count once. -/
example : (ofLine " b,, a ,b").toLine = "a, b" := by decide +kernel

end Words

end SortingOffice
