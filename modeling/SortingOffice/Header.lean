import SortingOffice.Text.Labelled
import SortingOffice.Text.Words
import SortingOffice.Time.Reading

/-!
# Mail headers

A header says who sent a mail, about what, to whom, and when it was received. Its text has one
labelled line for each of these, in any order, among lines that do not matter.

* `Header`: the headers.
* `Header.read`: reads a text; only the time received has to be there.
* `Header.toText`: the text of a header, four lines in a fixed order.
-/

namespace SortingOffice

/-- What is known of a mail besides its content. -/
structure Header where
  sender : String
  subject : String
  recipients : Words
  received : Moment
deriving DecidableEq

/-- Why a text is no header. -/
inductive HeaderFault
  /-- There is no text. -/
  | missing
  /-- The value of the line that says when the mail was received is not a moment. -/
  | unreadableTime (value : String) (reason : Unreadable)
deriving DecidableEq, Repr

/-- The wording of a fault. -/
def HeaderFault.message : HeaderFault → String
  | missing => "Missing input: text can not be absent"
  | unreadableTime value reason =>
    "Invalid received timestamp '" ++ value ++ "': " ++ reason.message

namespace Header

/-! ## Labels -/

/-- The label of the sender's address. -/
def senderLabel : String := "sender:"

/-- The label of the subject. -/
def subjectLabel : String := "subject:"

/-- The label of the recipients' addresses. -/
def recipientsLabel : String := "recipients:"

/-- The label of the time received. -/
def receivedLabel : String := "received:"

/-! ## Reading and writing -/

/-- The header that a text describes. -/
def read (text : String) : Except HeaderFault Header :=
  let value := Text.valueAfter receivedLabel text
  match Moment.readMinuteText value with
  | .error reason => .error (.unreadableTime value reason)
  | .ok received => .ok {
      sender := Text.valueAfter senderLabel text
      subject := Text.valueAfter subjectLabel text
      recipients := .ofLine (Text.valueAfter recipientsLabel text)
      received }

/-- The header that a text describes, if there is a text. -/
def readOptional : Option String → Except HeaderFault Header
  | none => .error .missing
  | some text => read text

/-- The recipients as one line. -/
def recipientsLine (h : Header) : String := h.recipients.toLine

/-- The text of a header: a line each for the sender, the subject, the recipients and the time
received, which is cut to the minute. -/
def toText (h : Header) : String :=
  senderLabel ++ " " ++ h.sender ++ "\n" ++
  subjectLabel ++ " " ++ h.subject ++ "\n" ++
  recipientsLabel ++ " " ++ h.recipientsLine ++ "\n" ++
  receivedLabel ++ " " ++ h.received.toMinuteText

end Header

end SortingOffice
