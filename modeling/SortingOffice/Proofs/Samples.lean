import SortingOffice.Mail
import SortingOffice.Rule.Basic

/-!
# Headers, mails and rules for examples

* `Header.ancient`, `Header.about`, `Office.letterFrom`, `Office.letterToBoth`: headers.
* `Mailbox.owner`, `Mailbox.school`, `Mailbox.exam`, `Mailbox.examRule`: an account, one of its
  folders, a mail, and a rule for such mails.
-/

namespace SortingOffice

/-- A header from before the year 0, with labels where they do no harm. -/
def Header.ancient : Header where
  sender := "a@x.com"
  subject := "to the sender: thanks, all"
  recipients := .ofLine "sender:, subject:x"
  received := ⟨⟨-262143, 2, 28, by decide, by decide, by decide⟩,
    ⟨9, 5, 0, 0, by decide, by decide, by decide, by decide⟩⟩

/-- A header with some subject. -/
def Header.about (subject : String) : Header where
  sender := "a@x.com"
  subject := subject
  recipients := .ofLine "b@x.com"
  received := ⟨⟨2022, 12, 8, by decide, by decide, by decide⟩,
    ⟨14, 14, 0, 0, by decide, by decide, by decide, by decide⟩⟩

/-- A header for account `b`. -/
def Office.letterFrom (sender : String) : Header where
  sender
  subject := "hello"
  recipients := .ofLine "b@x.com"
  received := ⟨⟨2022, 12, 10, by decide, by decide, by decide⟩,
    ⟨9, 30, 0, 0, by decide, by decide, by decide, by decide⟩⟩

/-- A header for both accounts, with the address of account `b` as the sender's. -/
def Office.letterToBoth : Header :=
  { letterFrom "b@x.com" with recipients := .ofLine "a@x.com, b@x.com" }

/-- An account for examples. -/
def Mailbox.owner : Account := ⟨"b@x.com", "b"⟩

/-- A folder for examples. -/
def Mailbox.school : Path := ⟨"/inbox/school"⟩

/-- A mail about an exam. -/
def Mailbox.exam : Mail where
  sender := none
  recipients := .ofLine "b@x.com"
  subject := "an exam"
  body := "good luck"
  received := ⟨⟨2023, 1, 17, by decide, by decide, by decide⟩,
    ⟨12, 45, 30, 500000000, by decide, by decide, by decide, by decide⟩⟩

/-- A rule for mails about exams. -/
def Mailbox.examRule (folder : Path) (priority : Int32) : Rule where
  folder
  priority
  definition := { sender := ∅, recipients := ∅, subject := .ofLine "exam", subjectOrBody := ∅ }

end SortingOffice
