import Mathlib.Data.List.Nodup
import SortingOffice.Proofs.Office.Copies

/-!
# What sending does to each mailbox

Sending is a loop: each recipient with an account receives the mail behind all recipients in front
of it, and each time the text is checked and read and the sender is looked up again. Since an
address belongs to one account, the loop comes to each mailbox at most once, so what happens to a
mailbox can be said without the loop.

* `nodup_localNames`: no account is served twice.
* `requestsFor_deliveries`, `requestsFor_sending`: the part of the loop that is for one account.
* **`after_deliveries_of_perm`**: the order of the recipients does not matter.
* **`Reachable.send_effect`**: each mailbox behind a mail that is sent.
-/

namespace SortingOffice

namespace Office

variable {o : Office} {n name header content : String} {b : Mailbox} {sender : Account} {h : Header}
  {m : Mail} {names names' : List String}

theorem register_notMem_sending (a : Account) :
    .register a ∉ o.sending name sender h content := by
  rw [sending, List.mem_cons]
  split_ifs <;> simp [register_notMem_deliveries]

/-! ## At most one delivery for each account -/

theorem nodup_localNames (ho : o.Sound) (ws : Words) : (o.localNames ws).Nodup := by
  have hwords : ws.toList.Nodup := Std.ExtTreeSet.distinct_toList.imp Std.ReflCmp.ne_of_cmp_ne_eq
  rw [localNames]
  refine List.Nodup.filterMap ?_ hwords
  intro email email' n hn hn'
  obtain ⟨a, ha, rfl⟩ := Option.map_eq_some_iff.1 hn
  obtain ⟨a', ha', hname⟩ := Option.map_eq_some_iff.1 hn'
  obtain ⟨rfl, b, hb, rfl⟩ := (Roster.findByEmail_eq_some_iff ho.roster).1 ha
  obtain ⟨rfl, b', hb', rfl⟩ := (Roster.findByEmail_eq_some_iff ho.roster).1 ha'
  -- one name, so one mailbox, so one address
  rw [hname, hb] at hb'
  rw [Option.some.inj hb']

theorem requestsFor_deliveries (hnames : names.Nodup) (m : Mail) (n : String) :
    Roster.requestsFor n (deliveries m names) = if n ∈ names then [.deliver m] else [] := by
  induction names with
  | nil => rfl
  | cons n' names ih =>
    obtain ⟨hn', hnames⟩ := List.nodup_cons.1 hnames
    rw [deliveries, List.map_cons, Roster.requestsFor, ← deliveries, ih hnames]
    by_cases hn : n' = n
    · rw [if_pos hn, if_neg (hn ▸ hn'), if_pos (List.mem_cons.2 (.inl hn.symm))]
    · simp [hn, Ne.symm hn]

theorem mem_localNames_iff (ho : o.Sound) (hb : o.roster.mailbox? n = some b) {ws : Words} :
    n ∈ o.localNames ws ↔ b.account.email ∈ ws := by
  rw [mem_localNames ho, hb]
  simp

theorem requestsFor_sending (ho : o.Sound) (hb : o.roster.mailbox? n = some b) :
    Roster.requestsFor n (o.sending name sender h content) =
      (if n = name then [.recordSent (.ofHeader h (some sender) content)] else []) ++
        if o.settings.deliverLocally = true ∧ b.account.email ∈ h.recipients then
          [.deliver (o.arriving h content)] else [] := by
  have hrest : Roster.requestsFor n (if o.settings.deliverLocally then
      deliveries (o.arriving h content) (o.localNames h.recipients) else []) =
        if o.settings.deliverLocally = true ∧ b.account.email ∈ h.recipients then
          [.deliver (o.arriving h content)] else [] := by
    by_cases hlocal : o.settings.deliverLocally = true
    · rw [if_pos hlocal, requestsFor_deliveries (nodup_localNames ho _)]
      simp [hlocal, mem_localNames_iff ho hb]
    · simp [hlocal, Roster.requestsFor]
  rw [sending, Roster.requestsFor, hrest]
  by_cases hn : name = n
  · rw [if_pos hn, if_pos hn.symm, List.singleton_append]
  · rw [if_neg hn, if_neg (Ne.symm hn), List.nil_append]

/-! ## The order of the recipients -/

/-- **The order of the recipients does not matter.** -/
theorem after_deliveries_of_perm (o : Office) (m : Mail) (hnames : names.Nodup)
    (hperm : names.Perm names') : o.after (deliveries m names') = o.after (deliveries m names) := by
  rw [after, after]
  congr 1
  refine Roster.run_congr register_notMem_deliveries register_notMem_deliveries fun n b _ => ?_
  rw [requestsFor_deliveries hnames, requestsFor_deliveries (hnames.perm hperm)]
  simp only [hperm.mem_iff]

theorem receiveAll_of_perm (ho : o.Sound) (hheader : Text.isBlankText header = false)
    (hcontent : Text.isBlankText content = false) (hread : Header.read header = .ok h)
    (hperm : names.Perm (o.localNames h.recipients)) :
    o.receiveAll header content names =
      o.receiveAll header content (o.localNames h.recipients) := by
  have hlocal : ∀ n ∈ o.localNames h.recipients, ∃ b, o.roster.mailbox? n = some b := by
    intro n hn
    obtain ⟨b, hb, -⟩ := (mem_localNames ho).1 hn
    exact ⟨b, hb⟩
  have hnames : ∀ n ∈ names, ∃ b, o.roster.mailbox? n = some b := fun n hn =>
    hlocal n (hperm.mem_iff.1 hn)
  rw [receiveAll_eq ho hheader hcontent hread hnames,
    receiveAll_eq ho hheader hcontent hread hlocal,
    after_deliveries_of_perm o _ (nodup_localNames ho _) hperm.symm]

/-! ## What each account sees -/

theorem mailbox?_after_sending (ho : o.Sound) (hb : o.roster.mailbox? n = some b) {b₁ : Mailbox}
    (hb₁ : b₁ = if n = name then b.recordSent (.ofHeader h (some sender) content) else b) :
    ∃ b', (o.after (o.sending name sender h content)).roster.mailbox? n = some b' ∧
      if o.settings.deliverLocally = true ∧ b.account.email ∈ h.recipients then
        ∃ p, b₁.deliver (o.arriving h content) = ⟨.ok p, b'⟩
      else b' = b₁ := by
  have hroutable : b₁.Routable := by
    rw [hb₁]
    split_ifs
    · exact (ho.roster.routable hb).step (.recordSent _)
    · exact ho.roster.routable hb
  have hfront : b.run (if n = name then [.recordSent (.ofHeader h (some sender) content)]
      else []) = b₁ := by
    rw [hb₁]
    split_ifs <;> rfl
  rw [roster_after, Roster.mailbox?_run_of_some hb, requestsFor_sending ho hb, Mailbox.run_append,
    hfront]
  refine ⟨_, rfl, ?_⟩
  split_ifs
  · refine ⟨b₁.placeFor (o.arriving h content), ?_⟩
    rw [Mailbox.run_cons, Mailbox.run_nil, Mailbox.step, Mailbox.deliver_eq hroutable]
  · rfl

/-- **What sending a mail does.** Let a reachable office send a mail. Each mailbox is as it was,
with the copy that is kept in the folder for sent mail, if it is the sender's, and then with one
delivery of the copy that arrives, if the mailbox belongs to a recipient and the settings say so;
that delivery does not fail. The copy that arrives names the account that has the address in the
header. There are the same accounts and settings as before, and the recipients can be served in any
order. -/
theorem Reachable.send_effect (ho : o.Reachable) (name header content : String)
    (hsend : ∃ u, (o.send name header content).answer = .ok u) :
    ∃ (b₀ : Mailbox) (h : Header) (sender? : Option Account),
      o.roster.mailbox? name = some b₀ ∧ Header.read header = .ok h ∧
      (∀ a, sender? = some a ↔ a ∈ o.roster.accounts ∧ a.email = h.sender) ∧
      let kept := Mail.ofHeader h (some b₀.account) content
      let arriving := Mail.ofHeader h sender? content
      let out := o.send name header content
      (∀ n, o.roster.mailbox? n = none → out.state.roster.mailbox? n = none) ∧
      (∀ n b, o.roster.mailbox? n = some b → ∃ b', out.state.roster.mailbox? n = some b' ∧
        let b₁ := if n = name then b.recordSent kept else b
        if o.settings.deliverLocally = true ∧ b.account.email ∈ h.recipients then
          ∃ p, b₁.deliver arriving = ⟨.ok p, b'⟩
        else b' = b₁) ∧
      out.state.roster.accounts = o.roster.accounts ∧ out.state.settings = o.settings ∧
      (o.settings.deliverLocally = true →
        ∀ names, names.Perm ((o.keepSent name kept).localNames h.recipients) →
          (o.keepSent name kept).receiveAll header content names = out) := by
  have hsound := ho.sound
  obtain ⟨⟨sender, h⟩, hcheck⟩ := exists_checkMail_of_send hsend
  obtain ⟨-, hheader, hcontent, b₀, hb₀, hread, rfl⟩ := checkMail_eq_ok.1 hcheck
  refine ⟨b₀, h, o.roster.findByEmail h.sender, hb₀, hread,
    fun a => Roster.findByEmail_eq_some_iff_mem hsound.roster, ?_⟩
  intro kept arriving out
  have hout : out = ⟨.ok (), o.after (o.sending name b₀.account h content)⟩ :=
    send_eq hsound hcheck
  refine ⟨?_, ?_, ?_, ?_, ?_⟩
  · intro n hn
    rw [hout]
    exact Roster.mailbox?_run_of_none hn register_notMem_sending
  · intro n b hb
    rw [hout]
    exact mailbox?_after_sending hsound hb rfl
  · rw [hout]
    exact Roster.accounts_run register_notMem_sending
  · rw [hout]
    rfl
  · intro hlocal names hperm
    -- the copy is kept before the recipients are looked up
    let q : Roster.Request := .edit name (.recordSent kept)
    have hkept : (o.after [q]).Sound := hsound.after (List.forall_mem_singleton.2 trivial)
    have hsend : out = (o.after [q]).receiveAll header content
        ((o.after [q]).localNames h.recipients) := by
      unfold out
      rw [send, hcheck, Outcome.guarded_ok]
      exact if_pos hlocal
    rw [hsend]
    exact receiveAll_of_perm hkept hheader hcontent hread hperm

/-- Account `a` sends a mail to itself and to `b`. Its own mailbox sees two requests. -/
theorem send_effect_neighbours :
    ∃ p b', (neighbours.send "a" letterToBoth.toText "hi").state.roster.mailbox? "a" = some b' ∧
      ((Mailbox.initial ⟨"a@x.com", "a"⟩).recordSent
        (.ofHeader letterToBoth (some ⟨"a@x.com", "a"⟩) "hi")).deliver
          (.ofHeader letterToBoth (some ⟨"b@x.com", "b"⟩) "hi") = ⟨.ok p, b'⟩ := by
  obtain ⟨ha, hb⟩ := mailbox?_neighbours
  have hletter : Header.read letterToBoth.toText = .ok letterToBoth := by decide +kernel
  obtain ⟨b₀, h, sender?, hb₀, hread, hsender, -, hall, -⟩ := reachable_neighbours.send_effect "a"
    letterToBoth.toText "hi" ⟨(), by decide +kernel⟩
  obtain rfl : .initial ⟨"a@x.com", "a"⟩ = b₀ := Option.some.inj (ha.symm.trans hb₀)
  obtain rfl : letterToBoth = h := Except.ok.inj (hletter.symm.trans hread)
  obtain rfl : sender? = some ⟨"b@x.com", "b"⟩ :=
    (hsender _).2 ⟨Roster.mem_accounts.2 ⟨"b", _, hb, rfl⟩, rfl⟩
  obtain ⟨b', hb', hdeliver⟩ := hall "a" _ ha
  rw [if_pos (by decide +kernel), if_pos rfl] at hdeliver
  obtain ⟨p, hp⟩ := hdeliver
  exact ⟨p, b', hb', hp⟩

end Office

end SortingOffice
