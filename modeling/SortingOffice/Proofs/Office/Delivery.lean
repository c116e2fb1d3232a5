import SortingOffice.Proofs.Office.Run

/-!
# Delivery

A mail that is sent is kept first and delivered then, so a delivery that fails leaves the kept copy
behind. Only a blank name makes a delivery fail, and in a sound office there is none.

* `Office.arriving`, `Office.sending`: the mail that recipients get, and what sending it asks of the
  roster.
* `Office.addressees`, `Office.served`, `Office.verdict`: who a mail is to be delivered to, and
  where and how that ends.
* **`receiveAll_eq_of_roster`**, **`send_eq_of_roster`**: what happens behind a check that passes,
  whatever the accounts are called.
* **`receiveAll_eq`**, **`send_eq`**: the same in a sound office.
-/

namespace SortingOffice

namespace Office

/-- A mail as it arrives. Its sender is the account with the address in the header. -/
def arriving (o : Office) (h : Header) (content : String) : Mail :=
  .ofHeader h (o.roster.findByEmail h.sender) content

/-- The requests that deliver a mail to accounts. -/
def deliveries (m : Mail) (names : List String) : List Roster.Request :=
  names.map fun n => .edit n (.deliver m)

/-- The requests that send a mail: one copy is kept, and one is delivered to each recipient with an
account if the settings say so. -/
def sending (o : Office) (name : String) (sender : Account) (h : Header) (content : String) :
    List Roster.Request :=
  .edit name (.recordSent (.ofHeader h (some sender) content)) ::
    if o.settings.deliverLocally then
      deliveries (o.arriving h content) (o.localNames h.recipients)
    else []

/-- The accounts that a mail is delivered to, in the order of delivery. -/
def addressees (o : Office) (h : Header) : List String :=
  if o.settings.deliverLocally then o.localNames h.recipients else []

/-- The accounts that are served before a blank name ends a list of deliveries. -/
def served (names : List String) : List String := names.takeWhile fun n => !Text.isBlankText n

/-- How a list of deliveries ends. -/
def verdict (names : List String) : Except Fault Unit :=
  if names.any Text.isBlankText then .error (.argument (.blank .accountName)) else .ok ()

variable {o : Office} {name header content : String} {a sender : Account} {h : Header}
  {names : List String}

theorem served_of_forall (hnames : ∀ n ∈ names, Text.isBlankText n = false) :
    served names = names :=
  List.takeWhile_eq_self_iff.2 fun n hn => by rw [hnames n hn]; rfl

theorem verdict_of_forall (hnames : ∀ n ∈ names, Text.isBlankText n = false) :
    verdict names = .ok () := by
  rw [verdict, if_neg]
  simpa using hnames

theorem register_notMem_deliveries {m : Mail} (a : Account) : .register a ∉ deliveries m names := by
  simp [deliveries]

/-! ## What deliveries do not change -/

theorem arriving_after_edit (o : Office) (n : String) (q : Mailbox.Request) :
    (o.after [.edit n q]).arriving h content = o.arriving h content := by
  rw [arriving, roster_after, Roster.run_cons, Roster.run_nil, Roster.findByEmail_step_edit]
  rfl

theorem localNames_after_edit (o : Office) (n : String) (q : Mailbox.Request) (ws : Words) :
    (o.after [.edit n q]).localNames ws = o.localNames ws := by
  rw [localNames, roster_after, Roster.run_cons, Roster.run_nil, localNames]
  congr 1
  funext email
  rw [Roster.findByEmail_step_edit]

theorem mem_localNames_of_roster (hr : o.roster.Sound) {ws : Words} {n : String} :
    n ∈ o.localNames ws ↔ ∃ b, o.roster.mailbox? n = some b ∧ b.account.email ∈ ws := by
  simp only [localNames, List.mem_filterMap, Std.ExtTreeSet.mem_toList, Option.map_eq_some_iff,
    Roster.findByEmail_eq_some_iff hr]
  constructor
  · rintro ⟨email, hemail, a, ⟨rfl, b, hb, rfl⟩, rfl⟩
    exact ⟨b, hb, hemail⟩
  · rintro ⟨b, hb, hemail⟩
    refine ⟨_, hemail, b.account, ⟨rfl, b, ?_, rfl⟩, hr.named hb⟩
    rw [hr.named hb, hb]

theorem mem_localNames (ho : o.Sound) {ws : Words} {n : String} : n ∈ o.localNames ws ↔
    ∃ b, o.roster.mailbox? n = some b ∧ b.account.email ∈ ws :=
  mem_localNames_of_roster ho.roster

theorem mem_addressees (hr : o.roster.Sound) : n ∈ o.addressees h ↔
    o.settings.deliverLocally = true ∧
      ∃ b, o.roster.mailbox? n = some b ∧ b.account.email ∈ h.recipients := by
  rw [addressees]
  split_ifs with hlocal
  · simp only [mem_localNames_of_roster hr, hlocal, true_and]
  · simp [hlocal]

/-! ## What happens behind the check -/

theorem receive_eq (hr : o.roster.Sound) (hcheck : o.checkMail name header content = .ok (a, h)) :
    ∃ p, o.receive name header content =
      ⟨.ok p, o.after (deliveries (o.arriving h content) [name])⟩ := by
  obtain ⟨-, -, -, b, hb, -, -⟩ := checkMail_eq_ok.1 hcheck
  refine ⟨b.placeFor (o.arriving h content), ?_⟩
  rw [receive, hcheck, Outcome.guarded_ok]
  show o.onMailbox name (·.deliver (o.arriving h content)) = _
  rw [onMailbox, Roster.edit_of_some hb, Mailbox.deliver_eq (hr.routable hb)]
  rfl

theorem checkMail_of_blank (hname : Text.isBlankText name = true) (header content : String) :
    o.checkMail name header content = .error (.argument (.blank .accountName)) := by
  rw [checkMail, demand, Argument.check, if_pos hname]
  rfl

/-- **A list of deliveries ends at the first blank name.** -/
theorem receiveAll_eq_of_roster (hr : o.roster.Sound) (hheader : Text.isBlankText header = false)
    (hcontent : Text.isBlankText content = false) (hread : Header.read header = .ok h)
    {names : List String} (hnames : ∀ n ∈ names, ∃ b, o.roster.mailbox? n = some b) :
    o.receiveAll header content names =
      ⟨verdict names, o.after (deliveries (o.arriving h content) (served names))⟩ := by
  induction names generalizing o with
  | nil => rfl
  | cons n names ih =>
    obtain ⟨b, hb⟩ := hnames n List.mem_cons_self
    cases hname : Text.isBlankText n with
    | true =>
      rw [receiveAll, receive, checkMail_of_blank hname, Outcome.guarded_error, verdict,
        served, List.takeWhile_cons_of_neg (by simp [hname]), List.any_cons, hname]
      rfl
    | false =>
      have hcheck : o.checkMail n header content = .ok (b.account, h) :=
        checkMail_eq_ok.2 ⟨hname, hheader, hcontent, b, hb, hread, rfl⟩
      obtain ⟨p, hreceive⟩ := receive_eq hr hcheck
      -- the other recipients find the same office behind the first delivery
      let q : Roster.Request := .edit n (.deliver (o.arriving h content))
      have hrest : ∀ n' ∈ names, ∃ b, (o.after [q]).roster.mailbox? n' = some b := by
        intro n' hn'
        obtain ⟨b', hb'⟩ := hnames n' (List.mem_cons_of_mem n hn')
        exact ⟨_, Roster.mailbox?_step_of_some hb' q⟩
      have hserved : served (n :: names) = n :: served names :=
        List.takeWhile_cons_of_pos (by simp [hname])
      have hverdict : verdict (n :: names) = verdict names := by
        rw [verdict, List.any_cons, hname, Bool.false_or, verdict]
      rw [receiveAll, hreceive, hserved, hverdict]
      show (o.after [q]).receiveAll header content names = _
      rw [ih (hr.step q) hrest, arriving_after_edit]
      rfl

theorem Sound.not_blank (ho : o.Sound) {n : String} {b : Mailbox}
    (hb : o.roster.mailbox? n = some b) : Text.isBlankText n = false := by
  rw [← ho.roster.named hb]
  exact (ho.complete hb).1

/-- **No delivery of a list fails.** -/
theorem receiveAll_eq (ho : o.Sound) (hheader : Text.isBlankText header = false)
    (hcontent : Text.isBlankText content = false) (hread : Header.read header = .ok h)
    {names : List String} (hnames : ∀ n ∈ names, ∃ b, o.roster.mailbox? n = some b) :
    o.receiveAll header content names =
      ⟨.ok (), o.after (deliveries (o.arriving h content) names)⟩ := by
  have hcomplete : ∀ n ∈ names, Text.isBlankText n = false := by
    intro n hn
    obtain ⟨b, hb⟩ := hnames n hn
    exact ho.not_blank hb
  rw [receiveAll_eq_of_roster ho.roster hheader hcontent hread hnames, served_of_forall hcomplete,
    verdict_of_forall hcomplete]

theorem send_of_error {fault : Fault} (hcheck : o.checkMail name header content = .error fault) :
    o.send name header content = ⟨.error fault, o⟩ := by
  rw [send, hcheck]
  rfl

theorem exists_checkMail_of_send (hsend : ∃ u, (o.send name header content).answer = .ok u) :
    ∃ x, o.checkMail name header content = .ok x := by
  cases hcheck : o.checkMail name header content with
  | ok x => exact ⟨x, rfl⟩
  | error fault =>
    obtain ⟨u, hu⟩ := hsend
    rw [send_of_error hcheck] at hu
    cases hu

/-- **Behind the check of a mail to send only a blank name fails.** -/
theorem send_eq_of_roster (hr : o.roster.Sound)
    (hcheck : o.checkMail name header content = .ok (sender, h)) :
    o.send name header content = ⟨verdict (o.addressees h),
      o.after (.edit name (.recordSent (.ofHeader h (some sender) content)) ::
        deliveries (o.arriving h content) (served (o.addressees h)))⟩ := by
  obtain ⟨-, hheader, hcontent, -, -, hread, -⟩ := checkMail_eq_ok.1 hcheck
  let q : Roster.Request := .edit name (.recordSent (.ofHeader h (some sender) content))
  have hq : (o.after [q]).roster.Sound := hr.step q
  have hnames : ∀ n ∈ (o.after [q]).localNames h.recipients,
      ∃ b, (o.after [q]).roster.mailbox? n = some b := by
    intro n hn
    obtain ⟨b, hb, -⟩ := (mem_localNames_of_roster hq).1 hn
    exact ⟨b, hb⟩
  rw [send, hcheck, Outcome.guarded_ok, addressees]
  show (if o.settings.deliverLocally then
    (o.after [q]).receiveAll header content ((o.after [q]).localNames h.recipients)
    else ⟨.ok (), o.after [q]⟩) = _
  split_ifs
  · rw [receiveAll_eq_of_roster hq hheader hcontent hread hnames, arriving_after_edit,
      localNames_after_edit]
    rfl
  · rfl

/-- **Behind the check of a mail to send nothing fails.** -/
theorem send_eq (ho : o.Sound) (hcheck : o.checkMail name header content = .ok (sender, h)) :
    o.send name header content = ⟨.ok (), o.after (o.sending name sender h content)⟩ := by
  have hcomplete : ∀ n ∈ o.addressees h, Text.isBlankText n = false := by
    intro n hn
    obtain ⟨-, b, hb, -⟩ := (mem_addressees ho.roster).1 hn
    exact ho.not_blank hb
  rw [send_eq_of_roster ho.roster hcheck, verdict_of_forall hcomplete, served_of_forall hcomplete,
    sending, addressees]
  split_ifs <;> rfl

end Office

end SortingOffice
