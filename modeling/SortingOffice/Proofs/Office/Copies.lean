import SortingOffice.Proofs.Mailbox.History
import SortingOffice.Proofs.Office.Delivery
import SortingOffice.Proofs.Samples

/-!
# Copies of a sent mail

The copy that is kept names the account that sends the mail. The copies that are delivered name the
account whose address stands in the header, which anyone can write there.

* `Office.Keeps`: whether an account has a mail in some folder.
* `arriving_eq_iff`: when both copies are the same mail.
* **`Reachable.keeps_copy_iff`**: which recipients have the kept mail in the end.
* **`not_forall_keeps_copy`**: not all of them do.
-/

namespace SortingOffice

/-- Whether a mail is in some folder can be looked up in all of them. -/
instance (t : FolderTree) (m : Mail) : Decidable (∃ f, t.Holds f m) :=
  decidable_of_iff (∃ e ∈ t.folders.toList, m ∈ e.2.mails) <| by
    simp only [Prod.exists, Std.ExtTreeMap.mem_toList_iff_getElem?_eq_some, FolderTree.holds_iff]

namespace Office

/-- Some folder of the account with a name holds a mail. -/
def Keeps (o : Office) (name : String) (m : Mail) : Prop :=
  ∃ b ∈ o.roster.mailbox? name, ∃ f, b.folders.Holds f m

instance (o : Office) (name : String) (m : Mail) : Decidable (o.Keeps name m) :=
  inferInstanceAs <| Decidable (∃ b ∈ o.roster.mailbox? name, ∃ f, b.folders.Holds f m)

variable {o : Office} {n name content : String} {b : Mailbox} {sender : Account}
  {h : Header} {m : Mail}

theorem mem_deliveries {m' : Mail} {names : List String} :
    .edit n (.deliver m) ∈ deliveries m' names ↔ n ∈ names ∧ m = m' := by
  simp [deliveries, eq_comm]

theorem edit_recordSent_mem_sending : .edit n (.recordSent m) ∈ o.sending name sender h content ↔
    n = name ∧ m = .ofHeader h (some sender) content := by
  rw [sending, List.mem_cons]
  split_ifs <;> simp [deliveries]

theorem edit_deliver_mem_sending (hlocal : o.settings.deliverLocally = true) :
    .edit n (.deliver m) ∈ o.sending name sender h content ↔
      n ∈ o.localNames h.recipients ∧ m = o.arriving h content := by
  rw [sending, if_pos hlocal, List.mem_cons, mem_deliveries]
  simp

/-- Both copies are the same mail exactly if the header has the address of the sending account. -/
theorem arriving_eq_iff (ho : o.Sound) (hb : o.roster.mailbox? name = some b) :
    .ofHeader h (some b.account) content = o.arriving h content ↔ h.sender = b.account.email := by
  have hfind : o.roster.findByEmail h.sender = some b.account ↔ b.account.email = h.sender := by
    rw [Roster.findByEmail_eq_some_iff ho.roster, ho.roster.named hb]
    simp [hb]
  simp only [arriving, Mail.ofHeader, Mail.mk.injEq, and_true]
  rw [eq_comm, hfind, eq_comm]

theorem keeps_after (ho : o.Sound) (hb : o.roster.mailbox? n = some b)
    (qs : List Roster.Request) : (o.after qs).Keeps n m ↔
      o.Keeps n m ∨ .edit n (.recordSent m) ∈ qs ∨ .edit n (.deliver m) ∈ qs := by
  simp only [Keeps, roster_after, Roster.mailbox?_run_of_some hb, hb, Option.mem_some,
    exists_eq_left', Mailbox.exists_holds_run (ho.roster.routable hb), Roster.mem_requestsFor]

/-- **Which recipients have the kept mail in the end.** Behind a mail that a reachable office sends
and delivers, the kept copy is among the sent mails of its account. A recipient with an account has
the same mail in some folder exactly if it is the sender, if the header has the sender's own
address, or if the mail was there before. -/
theorem Reachable.keeps_copy_iff (ho : o.Reachable) (name header content : String)
    (hlocal : o.settings.deliverLocally = true)
    (hsend : ∃ u, (o.send name header content).answer = .ok u) :
    ∃ b₀ h, o.roster.mailbox? name = some b₀ ∧ Header.read header = .ok h ∧
      (∃ b ∈ (o.send name header content).state.roster.mailbox? name,
        b.folders.Holds .sent (.ofHeader h (some b₀.account) content)) ∧
      ∀ n b, o.roster.mailbox? n = some b → b.account.email ∈ h.recipients →
        ((o.send name header content).state.Keeps n (.ofHeader h (some b₀.account) content) ↔
          n = name ∨ h.sender = b₀.account.email ∨
            o.Keeps n (.ofHeader h (some b₀.account) content)) := by
  have hsound := ho.sound
  obtain ⟨⟨sender, h⟩, hcheck⟩ := exists_checkMail_of_send hsend
  obtain ⟨-, -, -, b₀, hb₀, hread, rfl⟩ := checkMail_eq_ok.1 hcheck
  refine ⟨b₀, h, hb₀, hread, ?_, ?_⟩
  · rw [send_eq hsound hcheck, roster_after, Roster.mailbox?_run_of_some hb₀]
    refine ⟨_, rfl, ?_⟩
    rw [Mailbox.holds_run (hsound.roster.routable hb₀), Roster.mem_requestsFor,
      edit_recordSent_mem_sending]
    exact .inr (.inl ⟨⟨rfl, rfl⟩, rfl⟩)
  · intro n b hb hmem
    rw [send_eq hsound hcheck, keeps_after hsound hb, edit_recordSent_mem_sending,
      edit_deliver_mem_sending hlocal, arriving_eq_iff hsound hb₀]
    have hn : n ∈ o.localNames h.recipients := (mem_localNames hsound).2 ⟨b, hb, hmem⟩
    constructor
    · rintro (hkeeps | ⟨hname, -⟩ | ⟨-, hsender⟩)
      · exact .inr (.inr hkeeps)
      · exact .inl hname
      · exact .inr (.inl hsender)
    · rintro (hname | hsender | hkeeps)
      · exact .inr (.inl ⟨hname, rfl⟩)
      · exact .inr (.inr ⟨hn, hsender⟩)
      · exact .inl hkeeps

/-- Account `a` gives its own address, and account `b` has the kept mail. -/
theorem keeps_copy_neighbours :
    (neighbours.send "a" (letterFrom "a@x.com").toText "hi").state.Keeps "b"
      (.ofHeader (letterFrom "a@x.com") (some ⟨"a@x.com", "a"⟩) "hi") := by
  obtain ⟨ha, hb⟩ := mailbox?_neighbours
  have hletter : Header.read (letterFrom "a@x.com").toText = .ok (letterFrom "a@x.com") := by
    decide +kernel
  obtain ⟨b₀, h, hb₀, hread, -, hall⟩ := reachable_neighbours.keeps_copy_iff "a"
    (letterFrom "a@x.com").toText "hi" rfl ⟨(), by decide +kernel⟩
  obtain rfl : .initial ⟨"a@x.com", "a"⟩ = b₀ := Option.some.inj (ha.symm.trans hb₀)
  obtain rfl : letterFrom "a@x.com" = h := Except.ok.inj (hletter.symm.trans hread)
  exact (hall "b" _ hb (by decide +kernel)).2 (.inr (.inl rfl))

/-- **A recipient need not have the kept mail.** Account `a` gives the address of someone else, and
account `b` has a mail without a sender. -/
theorem not_forall_keeps_copy :
    ¬ ∀ (o : Office) (name header content : String), o.Reachable →
      o.settings.deliverLocally = true →
      (∃ u, (o.send name header content).answer = .ok u) →
      ∃ b₀ h, o.roster.mailbox? name = some b₀ ∧ Header.read header = .ok h ∧
        ∀ n b, o.roster.mailbox? n = some b → b.account.email ∈ h.recipients →
          (o.send name header content).state.Keeps n (.ofHeader h (some b₀.account) content) := by
  intro hclaim
  let letter : Header := letterFrom "ignored@elsewhere.com"
  obtain ⟨ha, hb⟩ := mailbox?_neighbours
  have hletter : Header.read letter.toText = .ok letter := by decide +kernel
  obtain ⟨b₀, h, hb₀, hread, hall⟩ :=
    hclaim neighbours "a" letter.toText "hi" reachable_neighbours rfl ⟨(), by decide +kernel⟩
  obtain rfl : .initial ⟨"a@x.com", "a"⟩ = b₀ := Option.some.inj (ha.symm.trans hb₀)
  obtain rfl : letter = h := Except.ok.inj (hletter.symm.trans hread)
  have hkeeps := hall "b" _ hb (by decide +kernel)
  revert hkeeps
  decide +kernel

end Office

end SortingOffice
