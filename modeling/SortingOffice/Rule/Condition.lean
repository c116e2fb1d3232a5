import SortingOffice.Mail
import SortingOffice.Text.Labelled
import SortingOffice.Text.Search
import SortingOffice.Rule.Criterion

/-!
# Conditions

* `Condition`: a criterion with the words it asks for.
* `Condition.read`: the condition that a rule's definition states for a criterion.
* `Condition.fits`: whether a mail meets a condition.
-/

namespace SortingOffice

/-- A criterion with the words it asks for. -/
structure Condition where
  criterion : Criterion
  words : Words
deriving DecidableEq

namespace Condition

/-- The condition that a definition states for a criterion: the words behind its label. -/
def read (criterion : Criterion) (definition : String) : Condition where
  criterion
  words := .ofLine (Text.valueAfter criterion.label definition)

/-- Whether the condition asks for nothing. -/
def isEmpty (c : Condition) : Bool := c.words.isEmpty

/-- Whether a mail has what the criterion asks for. -/
def holds (c : Condition) (m : Mail) : Bool :=
  match c.criterion with
  | .sender => m.senderEmail.any fun email => c.words.toList.all (· == email)
  | .recipients => c.words.toList.any fun word => m.recipients.contains word
  | .subject => c.words.toList.all fun word => Text.contains word m.subject
  | .subjectOrBody => c.words.toList.all fun word => Text.contains word (m.subject ++ m.body)

/-- Whether a mail meets a condition. Every mail meets an empty one. -/
def fits (c : Condition) (m : Mail) : Bool := c.isEmpty || c.holds m

end Condition

end SortingOffice
