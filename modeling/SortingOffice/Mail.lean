import SortingOffice.Account
import SortingOffice.Header

/-!
# Mails

* `Mail`: a mail as it is filed. Two mails with the same fields are the same mail.
* `Mail.ofHeader`: a mail from its header, its sender's account and its body.
* Mails are ordered by the time received, then by the other fields.
-/

namespace SortingOffice

/-- A mail as it is filed. The sender is an account, if the sender's address belongs to one. -/
structure Mail where
  sender : Option Account
  recipients : Words
  subject : String
  body : String
  received : Moment
deriving DecidableEq

namespace Mail

/-- The mail with the given header and body. The account is the sender's. -/
def ofHeader (h : Header) (sender : Option Account) (body : String) : Mail where
  sender
  recipients := h.recipients
  subject := h.subject
  body
  received := h.received

/-- The address of the sender's account. -/
def senderEmail (m : Mail) : Option String := m.sender.map Account.email

@[ext] theorem ext {a b : Mail} (hs : a.sender = b.sender) (hr : a.recipients = b.recipients)
    (hj : a.subject = b.subject) (hb : a.body = b.body) (ht : a.received = b.received) :
    a = b := by
  cases a; cases b; simp_all

/-- The order of mails: by time, subject, body, sender and recipients. -/
def order : Mail → Mail → Ordering :=
  compareLex (compareOn received) (compareLex (compareOn subject) (compareLex (compareOn body)
    (compareLex (compareOn sender) (compareOn fun m => m.recipients.toList))))

instance : Ord Mail := ⟨order⟩

instance : Std.TransOrd Mail :=
  inferInstanceAs <| Std.TransCmp <|
    compareLex (compareOn received) (compareLex (compareOn subject) (compareLex (compareOn body)
      (compareLex (compareOn sender) (compareOn fun m => m.recipients.toList))))

instance : Std.LawfulEqOrd Mail where
  eq_of_compare {a b} h := by
    have h' : order a b = .eq := h
    simp only [order, compareLex_eq_eq, compareOn] at h'
    obtain ⟨ht, hj, hb, hs, hr⟩ := h'
    exact Mail.ext (Std.LawfulEqOrd.eq_of_compare hs)
      (Std.ExtTreeSet.toList_inj.1 (Std.LawfulEqOrd.eq_of_compare hr))
      (Std.LawfulEqOrd.eq_of_compare hj) (Std.LawfulEqOrd.eq_of_compare hb)
      (Std.LawfulEqOrd.eq_of_compare ht)

end Mail

/-- A finite set of mails. -/
abbrev Mails := Std.ExtTreeSet Mail

end SortingOffice
