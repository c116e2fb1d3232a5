import SortingOffice.Mailbox

/-!
# Rosters

A roster holds the mailboxes of all accounts by name. No two accounts have the same name or the
same address.

* `Roster`: the mailboxes by the names of their accounts.
* `Roster.register`: adds an account.
* `Roster.find`, `Roster.findByEmail`: a mailbox by name, an account by address.
* `Roster.edit`: a request on one mailbox.
-/

namespace SortingOffice

/-- The mailboxes by the names of their accounts. -/
structure Roster where
  mailboxes : Std.ExtTreeMap String Mailbox
deriving DecidableEq

namespace Roster

/-- The roster without accounts. -/
def empty : Roster := ⟨∅⟩

/-- The accounts in the order of their names. -/
def accounts (r : Roster) : List Account := r.mailboxes.toList.map fun e => e.2.account

/-- The names of the accounts in their order. -/
def names (r : Roster) : List String := r.mailboxes.keys

/-- Whether there is an account with a name. -/
def contains (r : Roster) (name : String) : Bool := r.mailboxes.contains name

/-- The number of accounts. -/
def size (r : Roster) : Nat := r.mailboxes.size

/-- Whether there is no account. -/
def isEmpty (r : Roster) : Bool := r.mailboxes.isEmpty

/-- The mailbox of the account with a name, if there is one. -/
def mailbox? (r : Roster) (name : String) : Option Mailbox := r.mailboxes[name]?

/-- The mailbox of the account with a name. -/
def find (r : Roster) (name : String) : Except Fault Mailbox :=
  match r.mailbox? name with
  | none => .error (.accountNotFound name)
  | some b => .ok b

/-- The account with an address, if there is one. -/
def findByEmail (r : Roster) (email : String) : Option Account :=
  r.accounts.find? (·.email == email)

/-- Refuses an account whose name or address is taken. -/
def checkNew (r : Roster) (account : Account) : Except Fault Unit :=
  if r.contains account.name then .error (.nameTaken account.name)
  else if (r.findByEmail account.email).isSome then .error (.emailTaken account.email)
  else .ok ()

/-- Adds an account with a new mailbox and answers with it. A mailbox that is there is never
replaced. -/
def register (r : Roster) (account : Account) : Outcome Roster Account :=
  .guarded r (r.checkNew account) fun _ =>
    ⟨.ok account, ⟨r.mailboxes.insertIfNew account.name (.initial account)⟩⟩

/-- The roster with the mailbox of the account with a name changed. -/
def modify (r : Roster) (name : String) (change : Mailbox → Mailbox) : Roster :=
  ⟨r.mailboxes.modify name change⟩

/-- A request on the mailbox of the account with a name. -/
def edit {α : Type} (r : Roster) (name : String) (request : Mailbox → Outcome Mailbox α) :
    Outcome Roster α :=
  .guarded r (r.find name) fun b =>
    ⟨(request b).answer, ⟨r.mailboxes.insert name (request b).state⟩⟩

end Roster

end SortingOffice
