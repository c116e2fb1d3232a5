import SortingOffice.Proofs.Office.Atomic
import SortingOffice.Proofs.Roster.Accounts

/-!
# What requests write and what they answer

A request writes to the mailbox of its account, and a mail that is sent also to those of its
recipients. What is written depends on the settings and the accounts; only the check of a rule
looks into the mailbox.

* `Office.Request.account`, `Office.Request.IsMail`, `Office.Request.IsLocal`: the account that a
  request is for, and the mailboxes that it is about.
* `Office.writes`, **`state_perform`**: the requests on the roster that a request makes.
* `Office.Alike`: the same settings and the same accounts.
* **`writes_congr`**, **`writes_congr_of_mailbox?`**, **`answer_congr`**: what the writes and the
  answers depend on.
* **`Alike.perform`**: a request keeps offices alike.
-/

namespace SortingOffice

namespace Office

/-- The name of the account that a request is for. -/
def Request.account : Request → String
  | .addAccount name _ => name
  | .createFolder name _ => name
  | .addRule name _ _ _ => name
  | .receive name _ _ => name
  | .send name _ _ => name

/-- Requests that file mail. -/
def Request.IsMail : Request → Prop
  | .receive .. | .send .. => True
  | _ => False

/-- Requests that write to the mailbox of their own account only. -/
def Request.IsLocal : Request → Prop
  | .createFolder .. | .addRule .. | .receive .. => True
  | _ => False

/-- What is written behind a check, if it passes. -/
def behind {α : Type} (check : Except Fault α) (writes : α → List Roster.Request) :
    List Roster.Request :=
  match check with
  | .error _ => []
  | .ok a => writes a

/-- The requests on the roster that a request makes. -/
def writes (o : Office) : Request → List Roster.Request
  | .addAccount name email => behind (checkAccount name email) fun _ => [.register ⟨email, name⟩]
  | .createFolder name path => behind (checkFolder name path) fun _ =>
    [.edit name (.create ⟨path⟩)]
  | .addRule name path definition priority =>
    behind (o.checkRule name path definition priority) fun r => [.edit name (.addRule r)]
  | .receive name header content => behind (o.checkMail name header content) fun x =>
    deliveries (o.arriving x.2 content) [name]
  | .send name header content => behind (o.checkMail name header content) fun x =>
    .edit name (.recordSent (.ofHeader x.2 (some x.1) content)) ::
      deliveries (o.arriving x.2 content) (served (o.addressees x.2))

/-- Two offices have the same settings and the same accounts. -/
structure Alike (o o' : Office) : Prop where
  settings : o'.settings = o.settings
  account? : ∀ n, o'.roster.account? n = o.roster.account? n

variable {o o' o'' : Office} {q : Request} {qs : List Roster.Request} {n name : String}

/-! ## Kinds of requests -/

theorem Request.IsMail.ne_addAccount (hq : q.IsMail) (name email : String) :
    q ≠ .addAccount name email := by
  rintro rfl
  cases hq

theorem Request.IsMail.ne_addRule (hq : q.IsMail) (name path definition : String)
    (priority : Int32) : q ≠ .addRule name path definition priority := by
  rintro rfl
  cases hq

theorem Request.IsLocal.ne_addAccount (hq : q.IsLocal) (name email : String) :
    q ≠ .addAccount name email := by
  rintro rfl
  cases hq

/-! ## Writes -/

theorem state_guarded {α β : Type} {check : Except Fault β} {change : β → Outcome Office α}
    {writes : β → List Roster.Request} (h : ∀ x, (change x).state = o.after (writes x)) :
    (Outcome.guarded o check change).state = o.after (behind check writes) := by
  cases check with
  | error fault => rfl
  | ok x => exact h x

/-- **What a request writes.** -/
theorem state_perform (hr : o.roster.Sound) (q : Request) :
    (o.perform q).state = o.after (o.writes q) := by
  cases q with
  | addAccount name email => exact state_guarded fun _ => rfl
  | createFolder name path => exact state_guarded fun _ => state_onMailbox (fun _ => rfl) o name
  | addRule name path definition priority =>
    exact state_guarded fun _ => state_onMailbox (fun _ => rfl) o name
  | receive name header content =>
    exact state_guarded fun _ => state_onMailbox (fun _ => rfl) o name
  | send name header content =>
    rw [perform, writes]
    cases hcheck : o.checkMail name header content with
    | error fault =>
      rw [send_of_error hcheck]
      rfl
    | ok x => rw [send_eq_of_roster hr hcheck, behind]

theorem mem_behind {α : Type} {check : Except Fault α} {writes : α → List Roster.Request}
    {w : Roster.Request} : w ∈ behind check writes ↔ ∃ x, check = .ok x ∧ w ∈ writes x := by
  cases check <;> simp [behind]

theorem register_notMem_writes (hq : ∀ name email, q ≠ .addAccount name email) (a : Account) :
    .register a ∉ o.writes q := by
  cases q with
  | addAccount name email => exact absurd rfl (hq name email)
  | createFolder name path => simp [writes, mem_behind]
  | addRule name path definition priority => simp [writes, mem_behind]
  | receive name header content => simp [writes, mem_behind, register_notMem_deliveries]
  | send name header content => simp [writes, mem_behind, register_notMem_deliveries]

/-- Such a request writes nothing for other accounts. -/
theorem requestsFor_writes_of_ne (hq : q.IsLocal) (hn : q.account ≠ n) :
    Roster.requestsFor n (o.writes q) = [] := by
  rw [List.eq_nil_iff_forall_not_mem]
  intro w hw
  rw [Roster.mem_requestsFor] at hw
  cases q with
  | addAccount name email => cases hq
  | send name header content => cases hq
  | createFolder name path =>
    have hname : n ≠ name := Ne.symm hn
    simp [writes, mem_behind, hname] at hw
  | addRule name path definition priority =>
    have hname : n ≠ name := Ne.symm hn
    simp [writes, mem_behind, hname] at hw
  | receive name header content =>
    have hname : n ≠ name := Ne.symm hn
    simp [writes, mem_behind, deliveries, hname] at hw

/-! ## Offices with the same accounts -/

theorem Alike.symm (h : Alike o o') : Alike o' o :=
  ⟨h.settings.symm, fun n => (h.account? n).symm⟩

theorem Alike.trans (h : Alike o o') (h' : Alike o' o'') : Alike o o'' :=
  ⟨h'.settings.trans h.settings, fun n => (h'.account? n).trans (h.account? n)⟩

theorem alike_after (hqs : ∀ a, .register a ∉ qs) : Alike o (o.after qs) :=
  ⟨rfl, Roster.account?_run hqs⟩

theorem Alike.findByEmail (h : Alike o o') (email : String) :
    o'.roster.findByEmail email = o.roster.findByEmail email :=
  Roster.findByEmail_congr h.account? email

theorem Alike.arriving (h : Alike o o') (header : Header) (content : String) :
    o'.arriving header content = o.arriving header content := by
  rw [Office.arriving, h.findByEmail, Office.arriving]

theorem Alike.addressees (h : Alike o o') (header : Header) :
    o'.addressees header = o.addressees header := by
  rw [Office.addressees, h.settings, Office.addressees, localNames, localNames]
  simp only [h.findByEmail]

theorem Alike.checkMail (h : Alike o o') (name header content : String) :
    o'.checkMail name header content = o.checkMail name header content := by
  rw [Office.checkMail, Office.checkMail, Roster.find, Roster.find]
  rcases Roster.mailbox?_cases_of_account? (h.account? name) with
    ⟨hb, hb'⟩ | ⟨b, b', hb, hb', haccount⟩
  · rw [hb, hb']
  · rw [hb, hb']
    simp only [bind, Except.bind, haccount]

theorem Alike.checkRule (h : Alike o o')
    (hb : o'.roster.mailbox? name = o.roster.mailbox? name) (path definition : String)
    (priority : Int32) :
    o'.checkRule name path definition priority = o.checkRule name path definition priority := by
  rw [Office.checkRule, h.settings, Roster.find, hb, Office.checkRule, Roster.find]

/-- **Only the check of a rule looks into a mailbox.** -/
theorem writes_congr (h : Alike o o')
    (hq : ∀ name path definition priority, q ≠ .addRule name path definition priority) :
    o'.writes q = o.writes q := by
  cases q with
  | addRule name path definition priority => exact absurd rfl (hq name path definition priority)
  | addAccount name email => rfl
  | createFolder name path => rfl
  | receive name header content =>
    rw [writes, writes, h.checkMail]
    simp only [h.arriving]
  | send name header content =>
    rw [writes, writes, h.checkMail]
    simp only [h.arriving, h.addressees]

theorem writes_congr_of_mailbox? (h : Alike o o')
    (hb : o'.roster.mailbox? q.account = o.roster.mailbox? q.account) :
    o'.writes q = o.writes q := by
  cases q with
  | addRule name path definition priority =>
    have hname : o'.roster.mailbox? name = o.roster.mailbox? name := hb
    rw [writes, writes, h.checkRule hname]
  | _ => exact writes_congr h (by simp)

theorem alike_perform (hr : o.roster.Sound) (hq : ∀ name email, q ≠ .addAccount name email) :
    Alike o (o.perform q).state := by
  rw [state_perform hr]
  exact alike_after (register_notMem_writes hq)

/-- **A request keeps offices alike.** Whether a rule is added or refused makes no difference. -/
theorem Alike.perform (h : Alike o o') (hr : o.roster.Sound) (hr' : o'.roster.Sound)
    (q : Request) : Alike (o.perform q).state (o'.perform q).state := by
  by_cases hq : ∀ name email, q ≠ .addAccount name email
  · -- the writes may differ, but none of them is a new account
    exact (alike_perform hr hq).symm.trans (h.trans (alike_perform hr' hq))
  · simp only [not_forall, not_not] at hq
    obtain ⟨name, email, rfl⟩ := hq
    rw [state_perform hr, state_perform hr', writes, writes]
    cases checkAccount name email with
    | error fault => exact h
    | ok u => exact ⟨h.settings, Roster.account?_step_congr h.account? (.register ⟨email, name⟩)⟩

/-! ## Answers -/

theorem answer_onMailbox_congr {α : Type} {request : Mailbox → Outcome Mailbox α}
    (hb : o'.roster.mailbox? name = o.roster.mailbox? name) :
    (o'.onMailbox name request).answer = (o.onMailbox name request).answer := by
  rw [onMailbox, onMailbox]
  cases h : o.roster.mailbox? name with
  | none => rw [Roster.edit_of_none h, Roster.edit_of_none (hb.trans h)]
  | some b => rw [Roster.edit_of_some h, Roster.edit_of_some (hb.trans h)]

theorem answer_guarded_congr {σ α β : Type} {s s' : σ} {check check' : Except Fault β}
    {change change' : β → Outcome σ α} (hcheck : check' = check)
    (h : ∀ x, check = .ok x → (change' x).answer = (change x).answer) :
    (Outcome.guarded s' check' change').answer = (Outcome.guarded s check change).answer := by
  rw [hcheck]
  cases hx : check with
  | error fault => rfl
  | ok x => exact h x hx

theorem answer_send_congr (hr : o.roster.Sound) (hr' : o'.roster.Sound) (h : Alike o o')
    (name header content : String) :
    (o'.send name header content).answer = (o.send name header content).answer := by
  have hcheck' := h.checkMail name header content
  cases hcheck : o.checkMail name header content with
  | error fault => rw [send_of_error hcheck, send_of_error (hcheck'.trans hcheck)]
  | ok x =>
    rw [send_eq_of_roster hr hcheck, send_eq_of_roster hr' (hcheck'.trans hcheck), h.addressees]

/-- A mail that is received is answered with the folder that the rules say. -/
theorem answer_receive_congr (hr : o.roster.Sound) (hr' : o'.roster.Sound) (h : Alike o o')
    (hrules : ∀ {b b'}, o.roster.mailbox? name = some b → o'.roster.mailbox? name = some b' →
      b'.rulebook = b.rulebook) (header content : String) :
    (o'.receive name header content).answer = (o.receive name header content).answer := by
  refine answer_guarded_congr (h.checkMail name header content) fun x _ => ?_
  show (o'.onMailbox name (·.deliver (o'.arriving x.2 content))).answer =
    (o.onMailbox name (·.deliver (o.arriving x.2 content))).answer
  rw [onMailbox, onMailbox, h.arriving]
  rcases Roster.mailbox?_cases_of_account? (h.account? name) with ⟨hb, hb'⟩ | ⟨b, b', hb, hb', -⟩
  · rw [Roster.edit_of_none hb, Roster.edit_of_none hb']
  · rw [Roster.edit_of_some hb, Roster.edit_of_some hb']
    show (b'.deliver _).answer = (b.deliver _).answer
    rw [Mailbox.deliver_eq (hr.routable hb), Mailbox.deliver_eq (hr'.routable hb'),
      Mailbox.placeFor_congr (hrules hb hb')]

/-- **What an answer depends on**: the settings, the accounts, and the mailbox of the account that
the request is for. -/
theorem answer_congr (hr : o.roster.Sound) (hr' : o'.roster.Sound) (h : Alike o o')
    (hb : o'.roster.mailbox? q.account = o.roster.mailbox? q.account) :
    (o'.perform q).answer = (o.perform q).answer := by
  cases q with
  | addAccount name email =>
    exact answer_guarded_congr rfl fun _ _ => Roster.answer_register_congr h.account? _
  | createFolder name path => exact answer_guarded_congr rfl fun _ _ => answer_onMailbox_congr hb
  | addRule name path definition priority =>
    exact answer_guarded_congr (h.checkRule hb path definition priority) fun _ _ =>
      answer_onMailbox_congr hb
  | receive name header content =>
    refine answer_receive_congr hr hr' h ?_ header content
    intro b b' hsome hsome'
    have hsame : some b' = some b := hsome'.symm.trans (hb.trans hsome)
    rw [Option.some.inj hsame]
  | send name header content => exact answer_send_congr hr hr' h name header content

end Office

end SortingOffice
