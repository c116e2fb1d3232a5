import SortingOffice.Proofs.Office.Effect
import SortingOffice.Proofs.Office.Writes

/-!
# What an account can see of the others

Two offices may have the same accounts and differ in what is in the mailboxes. Then a request may
succeed in one of them and fail in the other, and a mail is filed into different folders. None of
this is seen by an account whose own mailbox is the same in both.

* `Office.AlikeFor`: the same settings, the same accounts, and the same mailbox of one of them.
* `requestsFor_writes`, **`AlikeFor.perform`**, `AlikeFor.run`: what is written to that mailbox, and
  that requests keep it the same.
* **`Reachable.isolation`**: the mailbox, the answers to requests for its account, and what it shows
  along a sequence of requests.
-/

namespace SortingOffice

namespace Office

/-- Two offices have the same settings, the same accounts, and the same mailbox of the account with
a name. -/
structure AlikeFor (n : String) (o o' : Office) : Prop extends Alike o o' where
  mailbox : ∃ b, o.roster.mailbox? n = some b ∧ o'.roster.mailbox? n = some b

variable {o o' : Office} {n : String} {b : Mailbox}

theorem AlikeFor.mailbox? (h : AlikeFor n o o') :
    o'.roster.mailbox? n = o.roster.mailbox? n := by
  obtain ⟨b, hb, hb'⟩ := h.mailbox
  rw [hb, hb']

/-! ## One request -/

/-- What is written to the mailbox is the same in both offices. -/
theorem AlikeFor.requestsFor_writes (h : AlikeFor n o o') (q : Request) :
    Roster.requestsFor n (o'.writes q) = Roster.requestsFor n (o.writes q) := by
  by_cases hn : q.account = n
  · subst hn
    rw [writes_congr_of_mailbox? h.toAlike h.mailbox?]
  · cases q with
    | addRule name path definition priority =>
      -- the rule may be refused in one of them, but it is for another account
      have hlocal : (Request.addRule name path definition priority).IsLocal := trivial
      rw [requestsFor_writes_of_ne hlocal hn, requestsFor_writes_of_ne hlocal hn]
    | _ => rw [writes_congr h.toAlike (by simp)]

/-- **A request keeps the mailbox the same in both offices.** -/
theorem AlikeFor.perform (h : AlikeFor n o o') (hr : o.roster.Sound) (hr' : o'.roster.Sound)
    (q : Request) : AlikeFor n (o.perform q).state (o'.perform q).state where
  toAlike := h.toAlike.perform hr hr' q
  mailbox := by
    obtain ⟨b, hb, hb'⟩ := h.mailbox
    refine ⟨b.run (Roster.requestsFor n (o.writes q)), ?_, ?_⟩
    · rw [state_perform hr, roster_after, Roster.mailbox?_run_of_some hb]
    · rw [state_perform hr', roster_after, Roster.mailbox?_run_of_some hb', h.requestsFor_writes]

/-- What the account sees of its mailbox. -/
theorem AlikeFor.shows (h : AlikeFor n o o') :
    (∀ path, o'.mailsIn n path = o.mailsIn n path) ∧ o'.foldersOf n = o.foldersOf n := by
  have hfind : o'.roster.find n = o.roster.find n := by rw [Roster.find, h.mailbox?, Roster.find]
  refine ⟨fun path => ?_, ?_⟩
  · rw [mailsIn, hfind, mailsIn]
  · rw [foldersOf, hfind, foldersOf]

/-! ## All requests -/

theorem AlikeFor.run (h : AlikeFor n o o') (ho : o.Reachable) (ho' : o'.Reachable)
    (qs : List Request) : AlikeFor n (o.run qs) (o'.run qs) := by
  induction qs generalizing o o' with
  | nil => exact h
  | cons q qs ih =>
    exact ih (h.perform ho.sound.roster ho'.sound.roster q) (ho.perform q) (ho'.perform q)

/-- **An account does not see the folders, rules and mails of others.** Let two reachable offices
have the same settings, the same set of accounts, and the same mailbox for one account, and let both
be asked for the same. The mailbox is the same behind it, and so are the accounts. Each request for
this account is answered in the same way in both offices, and so are the questions about its folders
and mails, whenever they come. -/
theorem Reachable.isolation (ho : o.Reachable) (ho' : o'.Reachable)
    (hsettings : o'.settings = o.settings)
    (haccounts : ∀ a, a ∈ o'.roster.accounts ↔ a ∈ o.roster.accounts)
    (hb : o.roster.mailbox? n = some b) (hb' : o'.roster.mailbox? n = some b)
    (qs : List Request) :
    (∃ b', (o.run qs).roster.mailbox? n = some b' ∧ (o'.run qs).roster.mailbox? n = some b') ∧
      (o'.run qs).roster.accounts = (o.run qs).roster.accounts ∧
      (∀ before q after, qs = before ++ q :: after → q.account = n →
        ((o'.run before).perform q).answer = ((o.run before).perform q).answer) ∧
      ∀ before after, qs = before ++ after →
        (∀ path, (o'.run before).mailsIn n path = (o.run before).mailsIn n path) ∧
          (o'.run before).foldersOf n = (o.run before).foldersOf n := by
  have h : AlikeFor n o o' :=
    { settings := hsettings
      account? := Roster.account?_of_mem_iff ho.sound.roster ho'.sound.roster haccounts
      mailbox := ⟨b, hb, hb'⟩ }
  refine ⟨(h.run ho ho' qs).mailbox, Roster.accounts_congr (h.run ho ho' qs).account?, ?_, ?_⟩
  · rintro before q after - rfl
    have hbefore := h.run ho ho' before
    exact answer_congr (ho.run before).sound.roster (ho'.run before).sound.roster hbefore.toAlike
      hbefore.mailbox?
  · rintro before after -
    exact (h.run ho ho' before).shows

/-- The office with two accounts where account `a` has a folder of its own. -/
def furnished : Office := (neighbours.perform (.createFolder "a" "/inbox/school")).state

/-- Account `a` adds a rule for that folder, and sends a mail to itself and to `b`. -/
def ruleAndLetter : List Request :=
  [.addRule "a" "/inbox/school" "subject-includes: hello" 5, .send "a" letterToBoth.toText "hi"]

theorem reachable_furnished : furnished.Reachable := reachable_neighbours.perform _

/-- Account `b` receives the mail, and does not see whether the rule was added. -/
theorem isolation_ruleAndLetter :
    ∃ b, (neighbours.run ruleAndLetter).roster.mailbox? "b" = some b ∧
      (furnished.run ruleAndLetter).roster.mailbox? "b" = some b := by
  have hsettings : furnished.settings = neighbours.settings := by decide +kernel
  have haccounts : furnished.roster.accounts = neighbours.roster.accounts := by decide +kernel
  have hb : furnished.roster.mailbox? "b" = some (.initial ⟨"b@x.com", "b"⟩) := by decide +kernel
  exact (reachable_neighbours.isolation reachable_furnished hsettings
    (fun a => by rw [haccounts]) mailbox?_neighbours.2 hb ruleAndLetter).1

end Office

end SortingOffice
