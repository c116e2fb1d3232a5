import SortingOffice.Text.Blank
import SortingOffice.Text.Search

/-!
# Labelled values

A text may carry values behind labels, such as `subject: minutes`. The label is looked for
anywhere in the text, and its leftmost place counts.

* `valueAfter`: the value behind a label.
-/

namespace SortingOffice.Text

/-- The value that starts `cs`: blanks are skipped, line breaks too, and what is left of the line
that is reached is the value, trimmed. -/
def leadingValue (cs : List Char) : List Char := trim ((trimStart cs).takeWhile (· != '\n'))

/-- The value behind the leftmost place of `label` in `text`, empty if the label does not stand in
the text. -/
def valueAfter (label text : String) : String :=
  match after? label.toList text.toList with
  | none => ""
  | some rest => String.ofList (leadingValue rest)

/-- The label may stand inside a line, and its value ends with that line. -/
example : valueAfter "to:" "sent to:  ann \r\nlater" = "ann" := by decide +kernel

/-- Behind a label with a blank line, the value is that of the next line that is not blank. -/
example : valueAfter "to:" "to: \n\nsubject: minutes\n" = "subject: minutes" := by decide +kernel

end SortingOffice.Text
