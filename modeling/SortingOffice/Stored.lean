import SortingOffice.Mail
import SortingOffice.Path
import SortingOffice.Json.Record

/-!
# Stored forms

Accounts, mails, headers and paths as JSON documents. A record is stored as an object with its
fields in a fixed order, a set as an array in the order of its members, and a moment as its text.

* `toJson` and `ofJson?` of each type: the stored form of a value, and the value of a document.
-/

namespace SortingOffice

namespace Words

/-- The stored form of a set. -/
def toJson (words : Words) : Json := .array (words.toList.map Json.text)

/-- The set whose members an array lists. -/
def ofJson? (j : Json) : Option Words := j.strings?.map fun items => .ofList items

end Words

namespace Moment

/-- The stored form of a moment. -/
def toJson (m : Moment) : Json := .text m.toText

/-- The moment that a string shows. -/
def ofJson? (j : Json) : Option Moment := j.string?.bind fun text => (readText text).toOption

end Moment

namespace Account

/-- The stored form of an account. -/
def toJson (a : Account) : Json := .record [("email", .text a.email), ("name", .text a.name)]

/-- The account that a document gives. -/
def ofJson? (j : Json) : Option Account := do
  let r ← j.fields? ["email", "name"]
  pure {
    email := ← (← r.get? "email").string?
    name := ← (← r.get? "name").string? }

/-- The account that a document gives, or none for the document `null`. -/
def ofNullable? : Json → Option (Option Account)
  | .scalar .null => some none
  | j => (ofJson? j).map some

end Account

namespace Mail

/-- The stored form of a mail. -/
def toJson (m : Mail) : Json :=
  .record [("sender", m.sender.elim .null Account.toJson), ("recipients", m.recipients.toJson),
    ("subject", .text m.subject), ("body", .text m.body), ("received", m.received.toJson)]

/-- The mail that a document gives. An object may leave out the sender, which means there is
none. -/
def ofJson? (j : Json) : Option Mail := do
  let r ← j.fields? ["sender", "recipients", "subject", "body", "received"]
  pure {
    sender := ← match r.get? "sender" with
      | some sender => Account.ofNullable? sender
      | none => if r.named then some none else none
    recipients := ← Words.ofJson? (← r.get? "recipients")
    subject := ← (← r.get? "subject").string?
    body := ← (← r.get? "body").string?
    received := ← Moment.ofJson? (← r.get? "received") }

end Mail

namespace Header

/-- The stored form of a header. -/
def toJson (h : Header) : Json :=
  .record [("sender", .text h.sender), ("subject", .text h.subject),
    ("recipients", h.recipients.toJson), ("received", h.received.toJson)]

/-- The header that a document gives. -/
def ofJson? (j : Json) : Option Header := do
  let r ← j.fields? ["sender", "subject", "recipients", "received"]
  pure {
    sender := ← (← r.get? "sender").string?
    subject := ← (← r.get? "subject").string?
    recipients := ← Words.ofJson? (← r.get? "recipients")
    received := ← Moment.ofJson? (← r.get? "received") }

end Header

namespace Path

/-- The stored form of a path. -/
def toJson (p : Path) : Json := .text p.text

/-- The path that a document gives. -/
def ofJson? (j : Json) : Option Path := j.string?.map Path.mk

end Path

end SortingOffice
