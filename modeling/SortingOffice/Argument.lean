import SortingOffice.Text.Blank

/-!
# Arguments

What a caller hands over is checked before anything is done with it.

* `Argument`: the texts that must not be blank.
* `ArgumentFault`: why an argument is refused.
* `Argument.check`, `checkPriority`: the checks.
-/

namespace SortingOffice

/-- A text that a caller has to supply. -/
inductive Argument
  | accountName
  | email
  | folderPath
  | ruleDefinition
  | mailHeader
  | mailContent
deriving DecidableEq, Repr

/-- The name of an argument in messages. -/
def Argument.title : Argument → String
  | accountName => "Account name"
  | email => "Email"
  | folderPath => "Folder path"
  | ruleDefinition => "Rule definition"
  | mailHeader => "Mail metadata"
  | mailContent => "Mail content"

/-- The key of an argument in forms. -/
def Argument.field : Argument → String
  | accountName => "account_name"
  | email => "email"
  | folderPath => "folder_path"
  | ruleDefinition => "rule_definition"
  | mailHeader => "mail_metadata"
  | mailContent => "mail_content"

/-- Why an argument is refused. -/
inductive ArgumentFault
  /-- The text is empty or holds nothing but blanks. -/
  | blank (argument : Argument)
  /-- The priority is not between the two bounds. -/
  | priorityOutOfRange (priority least greatest : Int32)
deriving DecidableEq, Repr

namespace ArgumentFault

/-- The wording without particulars. -/
def brief : ArgumentFault → String
  | blank a => a.title ++ " can not be empty or blank"
  | priorityOutOfRange .. => "Priority out of bounds"

/-- The full wording. -/
def message : ArgumentFault → String
  | blank a => brief (blank a)
  | fault@(priorityOutOfRange priority least greatest) =>
    fault.brief ++ " (" ++ toString priority.toInt ++ " not in " ++ toString least.toInt ++ "..=" ++
      toString greatest.toInt ++ ")"

/-- The key of the argument in forms. -/
def field : ArgumentFault → String
  | blank a => a.field
  | priorityOutOfRange .. => "priority"

end ArgumentFault

/-- Refuses a blank text. -/
def Argument.check (a : Argument) (value : String) : Except ArgumentFault Unit :=
  if Text.isBlankText value then .error (.blank a) else .ok ()

/-- Refuses a priority that is not between the bounds. -/
def checkPriority (priority least greatest : Int32) : Except ArgumentFault Unit :=
  if priority < least ∨ greatest < priority then
    .error (.priorityOutOfRange priority least greatest)
  else .ok ()

end SortingOffice
