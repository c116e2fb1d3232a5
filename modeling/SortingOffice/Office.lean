import SortingOffice.Roster
import SortingOffice.Settings

/-!
# Offices

An office sorts the mail of the accounts on its roster. Each request checks its arguments in a
fixed order, and the first fault found is the answer.

* `Office`: a roster with settings.
* `Office.addAccount`, `Office.createFolder`, `Office.addRule`: requests that set up a mailbox.
* `Office.receive`, `Office.send`: requests that file mail.
* `Office.mailsIn`, `Office.foldersOf`: what a mailbox holds.
-/

namespace SortingOffice

/-- A roster with settings. -/
structure Office where
  roster : Roster
  settings : Settings
deriving DecidableEq

namespace Office

/-! ## Opening -/

/-- The office without accounts and with the standard settings. -/
def initial : Office := ⟨.empty, .standard⟩

/-- The office with the given roster and settings, if the settings make sense. -/
def openWith (roster : Roster) (settings : Settings) : Except Fault Office :=
  settings.check.map fun _ => ⟨roster, settings⟩

/-! ## Checks -/

/-- Refuses a blank argument. -/
def demand (argument : Argument) (value : String) : Except Fault Unit :=
  (argument.check value).mapError .argument

/-- Refuses an account with a blank name or a blank address. -/
def checkAccount (name email : String) : Except Fault Unit := do
  demand .accountName name
  demand .email email

/-- Refuses a folder with a blank account name or a blank path. -/
def checkFolder (name path : String) : Except Fault Unit := do
  demand .accountName name
  demand .folderPath path

/-- The rule that a request describes. Its arguments are not blank, its priority is in the range of
the settings, and its folder exists. -/
def checkRule (o : Office) (name path definition : String) (priority : Int32) :
    Except Fault Rule := do
  demand .accountName name
  demand .folderPath path
  demand .ruleDefinition definition
  (checkPriority priority o.settings.leastPriority o.settings.greatestPriority).mapError .argument
  let b ← o.roster.find name
  discard (b.folders.find ⟨path⟩)
  Rule.read ⟨path⟩ definition priority

/-- The account that a mail request is for, and the header of the mail. No argument is blank. -/
def checkMail (o : Office) (name header content : String) : Except Fault (Account × Header) := do
  demand .accountName name
  demand .mailHeader header
  demand .mailContent content
  let b ← o.roster.find name
  let h ← (Header.read header).mapError .header
  pure (b.account, h)

/-! ## Requests -/

/-- A request on the mailbox of the account with a name. -/
def onMailbox {α : Type} (o : Office) (name : String) (request : Mailbox → Outcome Mailbox α) :
    Outcome Office α :=
  ⟨(o.roster.edit name request).answer, { o with roster := (o.roster.edit name request).state }⟩

/-- Adds an account and answers with it. -/
def addAccount (o : Office) (name email : String) : Outcome Office Account :=
  .guarded o (checkAccount name email) fun _ =>
    let out := o.roster.register ⟨email, name⟩
    ⟨out.answer, { o with roster := out.state }⟩

/-- Creates a folder for an account and answers with the folder above it, which is looked up in the
new tree. -/
def createFolder (o : Office) (name path : String) : Outcome Office Path :=
  .guarded o (checkFolder name path) fun _ => o.onMailbox name fun b =>
    (b.create ⟨path⟩).ask fun b p => (b.folders.parent p).map (·.getD .root)

/-- Adds a rule for an account, which files the mail in its inbox that fits, and answers with the
number of mails moved. -/
def addRule (o : Office) (name path definition : String) (priority : Int32) :
    Outcome Office Nat :=
  .guarded o (o.checkRule name path definition priority) fun r => o.onMailbox name (·.addRule r)

/-- Files a mail that arrives for an account and answers with the folder's path. The sender is the
account with the sender's address, if there is one. -/
def receive (o : Office) (name header content : String) : Outcome Office Path :=
  .guarded o (o.checkMail name header content) fun (_, h) =>
    o.onMailbox name (·.deliver (.ofHeader h (o.roster.findByEmail h.sender) content))

/-- A mail that arrives for several accounts, one after the other. It ends with the first account
that cannot receive the mail. -/
def receiveAll (o : Office) (header content : String) : List String → Outcome Office Unit
  | [] => ⟨.ok (), o⟩
  | name :: names =>
    match o.receive name header content with
    | ⟨.error fault, o⟩ => ⟨.error fault, o⟩
    | ⟨.ok _, o⟩ => o.receiveAll header content names

/-- The names of the accounts whose addresses are in a set, in the order of the addresses. -/
def localNames (o : Office) (addresses : Words) : List String :=
  addresses.toList.filterMap fun email => (o.roster.findByEmail email).map Account.name

/-- The office with a mail among the sent mails of the account with a name. -/
def keepSent (o : Office) (name : String) (m : Mail) : Office :=
  { o with roster := o.roster.modify name (·.recordSent m) }

/-- Sends a mail from an account. The account keeps a copy, and the recipients that have an account
receive the mail if the settings say so. -/
def send (o : Office) (name header content : String) : Outcome Office Unit :=
  .guarded o (o.checkMail name header content) fun (sender, h) =>
    let kept := o.keepSent name (.ofHeader h (some sender) content)
    if o.settings.deliverLocally then
      kept.receiveAll header content (kept.localNames h.recipients)
    else ⟨.ok (), kept⟩

/-! ## Questions -/

/-- The mails in a folder of an account. -/
def mailsIn (o : Office) (name path : String) : Except Fault Mails := do
  checkFolder name path
  (← o.roster.find name).folders.mails ⟨path⟩

/-- The paths of all folders of an account in their order. -/
def foldersOf (o : Office) (name : String) : Except Fault (List Path) :=
  (o.roster.find name).map (·.folders.paths)

end Office

end SortingOffice
