import SortingOffice.Rule.Basic

/-!
# Rulebooks

The rules of one account, in the order in which they are asked: by priority, and those of the
same priority as they came.

* `Rulebook`: the rules in their order.
* `Rulebook.insert`: adds a rule.
* `Rulebook.firstFor`: the rule that decides about a mail.
-/

namespace SortingOffice

/-- Rules in the order in which they are asked. -/
structure Rulebook where
  rules : List Rule
deriving DecidableEq

namespace Rulebook

/-- The rulebook without rules. -/
def empty : Rulebook := ⟨[]⟩

/-- The rulebook with a rule put behind the leading rules of the same or a lower priority. -/
def place (book : Rulebook) (r : Rule) : Rulebook :=
  ⟨book.rules.takeWhile (·.priority ≤ r.priority) ++
    r :: book.rules.dropWhile (·.priority ≤ r.priority)⟩

/-- Adds a rule, unless it conflicts with one that is there. -/
def insert (book : Rulebook) (r : Rule) : Except Fault Rulebook :=
  if book.rules.any (·.conflictsWith r) then .error (.ruleConflict r.priority r.folder)
  else .ok (book.place r)

/-- The first rule that fits a mail. -/
def firstFor (book : Rulebook) (m : Mail) : Option Rule := book.rules.find? (·.fits m)

end Rulebook

end SortingOffice
