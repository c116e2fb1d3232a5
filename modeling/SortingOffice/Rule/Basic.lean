import SortingOffice.Fault
import SortingOffice.Rule.Condition

/-!
# Rules

A rule files the mails that meet all its conditions into its folder.

* `Definition`: the words for each criterion.
* `Rule`: a folder, a priority and a definition.
* `Rule.read`: a rule from the text of its definition.
* `Rule.fits`: whether a mail is one to file.
* `Rule.conflictsWith`: whether two rules ask for the same with the same priority.
-/

namespace SortingOffice

/-- What a rule asks for: the words for each criterion. -/
structure Definition where
  sender : Words
  recipients : Words
  subject : Words
  subjectOrBody : Words
deriving DecidableEq

namespace Definition

/-- The words for a criterion. -/
def words (d : Definition) : Criterion → Words
  | .sender => d.sender
  | .recipients => d.recipients
  | .subject => d.subject
  | .subjectOrBody => d.subjectOrBody

/-- The condition for a criterion. -/
def condition (d : Definition) (c : Criterion) : Condition := ⟨c, d.words c⟩

/-- The four conditions in their order. -/
def conditions (d : Definition) : List Condition := Criterion.all.map d.condition

/-- The definition that a text states. No label may stand in it more than once; of several that
do, the first in the order of the criteria is reported. -/
def read (text : String) : Except Fault Definition :=
  match Criterion.all.find? (·.repeatedIn text) with
  | some c => .error (.repeatedCriterion c)
  | none => .ok {
      sender := (Condition.read .sender text).words
      recipients := (Condition.read .recipients text).words
      subject := (Condition.read .subject text).words
      subjectOrBody := (Condition.read .subjectOrBody text).words }

end Definition

/-- A rule for filing mail. Rules of a lower priority come first. -/
structure Rule where
  folder : Path
  priority : Int32
  definition : Definition
deriving DecidableEq

namespace Rule

/-- The rule with the definition that a text states. -/
def read (folder : Path) (text : String) (priority : Int32) : Except Fault Rule :=
  (Definition.read text).map fun definition => { folder, priority, definition }

/-- Whether a mail meets all conditions. -/
def fits (r : Rule) (m : Mail) : Bool := r.definition.conditions.all (·.fits m)

/-- Whether two rules have the same priority and the same words, whatever their folders. -/
def conflictsWith (r s : Rule) : Bool :=
  r.priority == s.priority && r.definition == s.definition

end Rule

end SortingOffice
