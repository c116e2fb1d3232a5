import SortingOffice.Argument
import SortingOffice.Header
import SortingOffice.Path
import SortingOffice.Rule.Criterion

/-!
# Faults

* `Fault`: everything that can go wrong with a request.
* `Fault.message`: the wording.
* `Fault.isInput`, `Fault.isNotFound`, `Fault.isAlreadyThere`, `Fault.isConflict`: what sort of
  fault it is; some faults are of none of these.
-/

namespace SortingOffice

/-- What is wrong with settings. -/
inductive SettingsFault
  /-- The least priority is below 1. -/
  | leastTooSmall
  /-- The least priority is above the greatest. -/
  | emptyRange (least greatest : Int32)
deriving DecidableEq, Repr

/-- The wording of a fault in settings. -/
def SettingsFault.message : SettingsFault → String
  | leastTooSmall => "min_priority must be at least 1"
  | emptyRange least greatest =>
    "min_priority " ++ toString least.toInt ++ " is greater than max_priority " ++
      toString greatest.toInt

/-- Why a request fails. -/
inductive Fault
  | argument (fault : ArgumentFault)
  | header (fault : HeaderFault)
  | accountNotFound (name : String)
  | nameTaken (name : String)
  | emailTaken (email : String)
  | folderNotFound (path : Path)
  | folderExists (path : Path)
  /-- The path may not be created, or the folder above it is missing. -/
  | invalidPath (path : Path)
  /-- A definition has the label of the criterion more than once. -/
  | repeatedCriterion (criterion : Criterion)
  /-- There is a rule with the same priority and the same words already. -/
  | ruleConflict (priority : Int32) (folder : Path)
  | settings (fault : SettingsFault)
  /-- The text is not JSON, or not of the record that is due. -/
  | unreadable
deriving DecidableEq, Repr

namespace Fault

/-- The wording of a fault. -/
def message : Fault → String
  | argument fault => "Invalid input: " ++ fault.message
  | header fault => "Invalid mail metadata: " ++ fault.message
  | accountNotFound name => "Account not found: " ++ name
  | nameTaken name => "Account with name '" ++ name ++ "' already exists"
  | emailTaken email => "Account with email '" ++ email ++ "' already exists"
  | folderNotFound path => "Folder not found: " ++ path.text
  | folderExists path => "Folder already exists: " ++ path.text
  | invalidPath path => "Invalid folder path: " ++ path.text
  | repeatedCriterion c => "Rule condition '" ++ c.label ++ "' is defined more than once"
  | ruleConflict priority folder =>
    "Conflicting rule with priority " ++ toString priority.toInt ++ " (target folder " ++
      folder.text ++ ")"
  | settings fault => "Configuration error: " ++ fault.message
  | unreadable => "Serialization error"

/-- Whether the caller's input is blank, out of range or no header. -/
def isInput : Fault → Bool
  | argument _ | header _ => true
  | _ => false

/-- Whether an account or a folder does not exist. -/
def isNotFound : Fault → Bool
  | accountNotFound _ | folderNotFound _ => true
  | _ => false

/-- Whether an account or a folder exists already. -/
def isAlreadyThere : Fault → Bool
  | nameTaken _ | emailTaken _ | folderExists _ => true
  | _ => false

/-- Whether a rule clashes with itself or with another rule. -/
def isConflict : Fault → Bool
  | repeatedCriterion _ | ruleConflict .. => true
  | _ => false

end Fault

end SortingOffice
