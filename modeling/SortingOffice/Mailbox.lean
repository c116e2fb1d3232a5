import SortingOffice.FolderTree
import SortingOffice.Rule.Rulebook

/-!
# Mailboxes

* `Mailbox`: an account with its folders and its rules.
* `Mailbox.create`: creates a folder.
* `Mailbox.addRule`: adds a rule and files the mail in the inbox that fits it.
* `Mailbox.deliver`: files a mail that arrives.
* `Mailbox.recordSent`: keeps a mail that was sent.
-/

namespace SortingOffice

/-- An account with its folders and its rules. -/
structure Mailbox where
  account : Account
  folders : FolderTree
  rulebook : Rulebook
deriving DecidableEq

namespace Mailbox

/-- The mailbox of a new account. -/
def initial (account : Account) : Mailbox := ⟨account, .initial, .empty⟩

/-- A request on the folders. -/
def onFolders {α : Type} (b : Mailbox) (request : FolderTree → Outcome FolderTree α) :
    Outcome Mailbox α :=
  ⟨(request b.folders).answer, { b with folders := (request b.folders).state }⟩

/-- Creates a folder and answers with its path. -/
def create (b : Mailbox) (p : Path) : Outcome Mailbox Path := b.onFolders (·.create p)

/-- The rulebook with one more rule, whose folder has to exist. -/
def rulebookWith (b : Mailbox) (r : Rule) : Except Fault Rulebook :=
  match b.folders.find r.folder with
  | .error fault => .error fault
  | .ok _ => b.rulebook.insert r

/-- Adds a rule, moves the mails of the inbox that fit it into its folder, and answers with their
number. -/
def addRule (b : Mailbox) (r : Rule) : Outcome Mailbox Nat :=
  .guarded b (b.rulebookWith r) fun rulebook =>
    { b with rulebook : Mailbox }.onFolders (·.clearInbox r)

/-- Files a mail into the folder of the first rule that fits it, or into the inbox if none does, and
answers with the folder's path. -/
def deliver (b : Mailbox) (m : Mail) : Outcome Mailbox Path :=
  match b.rulebook.firstFor m with
  | none => ⟨.ok .inbox, { b with folders := b.folders.putMail .inbox m }⟩
  | some r => (b.onFolders (·.file r.folder m)).map fun _ => r.folder

/-- The mailbox with a mail in the folder for sent mail. -/
def recordSent (b : Mailbox) (m : Mail) : Mailbox :=
  { b with folders := b.folders.putMail .sent m }

end Mailbox

end SortingOffice
