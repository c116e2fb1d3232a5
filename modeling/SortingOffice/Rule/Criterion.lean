import SortingOffice.Text.Search

/-!
# Criteria

A rule can look at four things of a mail. A definition gives the words for each of them behind a
label.

* `Criterion`: the four things.
* `Criterion.all`: all of them in the order in which rules look at them.
* `Criterion.label`: the label in a definition.
* `Criterion.repeatedIn`: whether a definition has the label more than once.
-/

namespace SortingOffice

/-- What a condition looks at. -/
inductive Criterion
  /-- The address of the sender is each of the words. -/
  | sender
  /-- Some word is a recipient. -/
  | recipients
  /-- Each word stands in the subject. -/
  | subject
  /-- Each word stands in the subject with the body behind it. -/
  | subjectOrBody
deriving DecidableEq, Repr

namespace Criterion

/-- The criteria in their order. -/
def all : List Criterion := [sender, recipients, subject, subjectOrBody]

/-- The label in front of the words for a criterion. -/
def label : Criterion → String
  | sender => "from:"
  | recipients => "recipients-includes:"
  | subject => "subject-includes:"
  | subjectOrBody => "subject-or-body-includes:"

/-- Whether the label stands in a definition more than once. -/
def repeatedIn (c : Criterion) (definition : String) : Bool :=
  !Text.appearsAtMostOnce c.label definition

theorem mem_all (c : Criterion) : c ∈ all := by cases c <;> decide

end Criterion

end SortingOffice
