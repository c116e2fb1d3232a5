import Mathlib.Tactic.SplitIfs
import SortingOffice.Roster
import SortingOffice.Proofs.Mailbox.Run

/-!
# Runs of a roster

* `Roster.Request`, `Roster.step`, `Roster.run`: what a roster can be asked for, and the roster
  behind one request or several.
* `Roster.requestsFor`, **`mailbox?_run_of_some`**: each mailbox sees the requests for its account
  and no others.
* `Roster.Sound`, **`Sound.run`**: mailboxes stay under the names of their accounts, no two of them
  have the same address, and all stay routable.
* **`findByEmail_eq_some_iff`**, **`accounts_step_edit`**: an address belongs to one account at
  most, and mail does not change the accounts.
-/

namespace SortingOffice

namespace Roster

/-- What a roster can be asked for. -/
inductive Request
  | register (a : Account)
  | edit (name : String) (q : Mailbox.Request)

/-- The roster behind a request, whether it fails or not. -/
def step (r : Roster) : Request → Roster
  | .register a => (r.register a).state
  | .edit name q => r.modify name (·.step q)

/-- The roster behind a sequence of requests. -/
def run (r : Roster) (qs : List Request) : Roster := qs.foldl step r

/-- The account with a name, if there is one. -/
def account? (r : Roster) (name : String) : Option Account := (r.mailbox? name).map Mailbox.account

/-- The part of a sequence of requests that is for the mailbox of the account with a name. -/
def requestsFor (name : String) : List Request → List Mailbox.Request
  | [] => []
  | .register _ :: qs => requestsFor name qs
  | .edit n q :: qs => if n = name then q :: requestsFor name qs else requestsFor name qs

/-- Mailboxes are under the names of their accounts, no two have the same address, and each rule has
its folder. -/
structure Sound (r : Roster) : Prop where
  named : ∀ {n b}, r.mailbox? n = some b → b.account.name = n
  distinct : ∀ {n n' b b'}, r.mailbox? n = some b → r.mailbox? n' = some b' →
    b.account.email = b'.account.email → n = n'
  routable : ∀ {n b}, r.mailbox? n = some b → b.Routable

variable {r : Roster} {a : Account} {n name email : String} {b : Mailbox}

@[simp] theorem run_nil (r : Roster) : r.run [] = r := rfl

@[simp] theorem run_cons (r : Roster) (q : Request) (qs : List Request) :
    r.run (q :: qs) = (r.step q).run qs := rfl

theorem run_append (r : Roster) (qs qs' : List Request) :
    r.run (qs ++ qs') = (r.run qs).run qs' := List.foldl_append

/-! ## Looking up -/

theorem ext_mailbox? {r r' : Roster} (h : ∀ n, r.mailbox? n = r'.mailbox? n) : r = r' := by
  cases r
  cases r'
  rw [Roster.mk.injEq]
  exact Std.ExtTreeMap.ext_getElem? h

theorem find_eq_ok : r.find name = .ok b ↔ r.mailbox? name = some b := by
  rw [find]
  cases r.mailbox? name <;> simp

theorem mailbox?_modify (r : Roster) (name : String) (change : Mailbox → Mailbox) (n : String) :
    (r.modify name change).mailbox? n =
      if name = n then (r.mailbox? n).map change else r.mailbox? n := by
  rw [mailbox?, modify, Std.ExtTreeMap.getElem?_modify]
  simp only [Std.LawfulEqCmp.compare_eq_iff_eq]
  split_ifs with hn
  · rw [hn]
    rfl
  · rfl

theorem modify_of_none (h : r.mailbox? name = none) (change : Mailbox → Mailbox) :
    r.modify name change = r := by
  apply ext_mailbox?
  intro n
  rw [mailbox?_modify]
  split_ifs with hn
  · rw [← hn, h]
    rfl
  · rfl

theorem modify_of_fixed {change : Mailbox → Mailbox} (h : r.mailbox? name = some b)
    (hb : change b = b) : r.modify name change = r := by
  apply ext_mailbox?
  intro n
  rw [mailbox?_modify]
  split_ifs with hn
  · rw [← hn, h, Option.map_some, hb]
  · rfl

theorem edit_of_none {α : Type} (h : r.mailbox? name = none)
    (request : Mailbox → Outcome Mailbox α) :
    r.edit name request = ⟨.error (.accountNotFound name), r⟩ := by
  rw [edit, find, h]
  rfl

theorem edit_of_some {α : Type} (h : r.mailbox? name = some b)
    (request : Mailbox → Outcome Mailbox α) : r.edit name request =
      ⟨(request b).answer, r.modify name fun b => (request b).state⟩ := by
  rw [edit, find_eq_ok.2 h, Outcome.guarded_ok]
  congr 1
  apply ext_mailbox?
  intro n
  rw [mailbox?_modify, mailbox?, Std.ExtTreeMap.getElem?_insert]
  simp only [Std.LawfulEqCmp.compare_eq_iff_eq]
  split_ifs with hn
  · rw [← hn, h]
    rfl
  · rfl

theorem state_edit {α : Type} (r : Roster) (name : String)
    (request : Mailbox → Outcome Mailbox α) :
    (r.edit name request).state = r.modify name fun b => (request b).state := by
  cases h : r.mailbox? name with
  | none => rw [edit_of_none h, modify_of_none h]
  | some b => rw [edit_of_some h]

/-! ## Accounts -/

theorem mem_accounts : a ∈ r.accounts ↔ ∃ n b, r.mailbox? n = some b ∧ b.account = a := by
  simp only [accounts, List.mem_map, Prod.exists, Std.ExtTreeMap.mem_toList_iff_getElem?_eq_some]
  rfl

theorem findByEmail_eq_none_iff :
    r.findByEmail email = none ↔ ∀ n b, r.mailbox? n = some b → b.account.email ≠ email := by
  simp only [findByEmail, List.find?_eq_none, mem_accounts, beq_iff_eq]
  constructor
  · intro h n b hb
    exact h b.account ⟨n, b, hb, rfl⟩
  · rintro h a ⟨n, b, hb, rfl⟩
    exact h n b hb

theorem exists_of_findByEmail (h : r.findByEmail email = some a) :
    a.email = email ∧ ∃ n b, r.mailbox? n = some b ∧ b.account = a := by
  rw [findByEmail] at h
  exact ⟨by simpa using List.find?_some h, mem_accounts.1 (List.mem_of_find?_eq_some h)⟩

/-- **An address belongs to one account at most**, so the account is found in any order. -/
theorem findByEmail_eq_some_iff (hr : r.Sound) :
    r.findByEmail email = some a ↔ a.email = email ∧ ∃ b, r.mailbox? a.name = some b ∧
      b.account = a := by
  constructor
  · intro h
    obtain ⟨hemail, n, b, hb, rfl⟩ := exists_of_findByEmail h
    refine ⟨hemail, b, ?_, rfl⟩
    rw [hr.named hb, hb]
  · rintro ⟨hemail, b, hb, hba⟩
    cases h : r.findByEmail email with
    | none =>
      have hne := findByEmail_eq_none_iff.1 h a.name b hb
      rw [hba] at hne
      exact absurd hemail hne
    | some a' =>
      obtain ⟨hemail', n, b', hb', rfl⟩ := exists_of_findByEmail h
      have hn : n = a.name := hr.distinct hb' hb (by rw [hemail', hba, hemail])
      rw [hn, hb] at hb'
      rw [← Option.some.inj hb', hba]

theorem findByEmail_eq_some_iff_mem (hr : r.Sound) :
    r.findByEmail email = some a ↔ a ∈ r.accounts ∧ a.email = email := by
  rw [findByEmail_eq_some_iff hr, mem_accounts]
  constructor
  · rintro ⟨hemail, b, hb, hba⟩
    exact ⟨⟨a.name, b, hb, hba⟩, hemail⟩
  · rintro ⟨⟨n, b, hb, rfl⟩, hemail⟩
    refine ⟨hemail, b, ?_, rfl⟩
    rw [hr.named hb, hb]

theorem checkNew_eq_ok : r.checkNew a = .ok () ↔
    r.mailbox? a.name = none ∧ r.findByEmail a.email = none := by
  rw [checkNew, contains, Std.ExtTreeMap.contains_eq_isSome_getElem?, ← mailbox?]
  cases r.mailbox? a.name <;> cases r.findByEmail a.email <;> simp

/-! ## One request -/

theorem register_of_error {fault : Fault} (h : r.checkNew a = .error fault) :
    r.register a = ⟨.error fault, r⟩ := by
  rw [register, h]
  rfl

theorem mailbox?_register_of_ok (h : r.checkNew a = .ok ()) (n : String) :
    (r.register a).state.mailbox? n = if a.name = n then some (.initial a) else r.mailbox? n := by
  have hnone : r.mailboxes[a.name]? = none := (checkNew_eq_ok.1 h).1
  rw [register, h, Outcome.guarded_ok, mailbox?, Std.ExtTreeMap.getElem?_insertIfNew]
  simp only [Std.LawfulEqCmp.compare_eq_iff_eq, Std.ExtTreeMap.mem_iff_isSome_getElem?, hnone]
  split_ifs with hn hn' hn'
  · rfl
  · exact absurd hn.1 hn'
  · exact absurd ⟨hn', by simp⟩ hn
  · rfl

/-- Where a mailbox behind a request comes from: it is new, or it was there before and saw the
request if that was for it. -/
theorem mailbox?_step_cases (q : Request) (h : (r.step q).mailbox? n = some b) :
    (∃ a, q = .register a ∧ a.name = n ∧ r.checkNew a = .ok () ∧ b = .initial a) ∨
      ∃ b₀, r.mailbox? n = some b₀ ∧ (b = b₀ ∨ ∃ q₀, q = .edit n q₀ ∧ b = b₀.step q₀) := by
  cases q with
  | register a =>
    rw [step] at h
    cases hnew : r.checkNew a with
    | error fault =>
      rw [register_of_error hnew] at h
      exact .inr ⟨b, h, .inl rfl⟩
    | ok u =>
      rw [mailbox?_register_of_ok hnew] at h
      split_ifs at h with hn
      · exact .inl ⟨a, rfl, hn, hnew, (Option.some.inj h).symm⟩
      · exact .inr ⟨b, h, .inl rfl⟩
  | edit name q₀ =>
    rw [step, mailbox?_modify] at h
    split_ifs at h with hn
    · obtain ⟨b₀, hb₀, rfl⟩ := Option.map_eq_some_iff.1 h
      exact .inr ⟨b₀, hb₀, .inr ⟨q₀, by rw [hn], rfl⟩⟩
    · exact .inr ⟨b, h, .inl rfl⟩

/-- What holds of new mailboxes and is kept by every request holds of all mailboxes. -/
theorem forall_mailbox_step {P : Mailbox → Prop} (hinitial : ∀ a, P (.initial a))
    (hstep : ∀ b q, P b → P (b.step q)) (hr : ∀ {n b}, r.mailbox? n = some b → P b) (q : Request)
    (h : (r.step q).mailbox? n = some b) : P b := by
  rcases mailbox?_step_cases q h with ⟨a, -, -, -, rfl⟩ | ⟨b₀, hb₀, rfl | ⟨q₀, -, rfl⟩⟩
  · exact hinitial a
  · exact hr hb₀
  · exact hstep b₀ q₀ (hr hb₀)

theorem mailbox?_step_of_some (h : r.mailbox? n = some b) (q : Request) :
    (r.step q).mailbox? n = some (b.run (requestsFor n [q])) := by
  cases q with
  | register a =>
    rw [step, requestsFor, requestsFor, Mailbox.run_nil]
    cases hnew : r.checkNew a with
    | error fault => rw [register_of_error hnew, h]
    | ok u =>
      have hne : a.name ≠ n := by
        rintro rfl
        rw [(checkNew_eq_ok.1 hnew).1] at h
        cases h
      rw [mailbox?_register_of_ok hnew, if_neg hne, h]
  | edit name q₀ =>
    rw [step, mailbox?_modify, requestsFor]
    split_ifs with hn
    · rw [h]
      rfl
    · rw [h]
      rfl

theorem Sound.step (hr : r.Sound) (q : Request) : (r.step q).Sound := by
  have hfrom {n b} (h : (r.step q).mailbox? n = some b) :
      (∃ a, q = .register a ∧ a.name = n ∧ r.checkNew a = .ok () ∧ b = .initial a) ∨
        ∃ b₀, r.mailbox? n = some b₀ ∧ b.account = b₀.account := by
    rcases mailbox?_step_cases q h with hnew | ⟨b₀, hb₀, rfl | ⟨q₀, -, rfl⟩⟩
    · exact .inl hnew
    · exact .inr ⟨b, hb₀, rfl⟩
    · exact .inr ⟨b₀, hb₀, Mailbox.account_step b₀ q₀⟩
  have hfresh {a n b} (hnew : r.checkNew a = .ok ()) (h : r.mailbox? n = some b) :
      b.account.email ≠ a.email :=
    findByEmail_eq_none_iff.1 (checkNew_eq_ok.1 hnew).2 n b h
  -- a new account differs from all others, and the accounts of the others stay
  refine ⟨?_, ?_, ?_⟩
  · intro n b h
    rcases hfrom h with ⟨a, -, hn, -, rfl⟩ | ⟨b₀, hb₀, hacc⟩
    · exact hn
    · rw [hacc, hr.named hb₀]
  · intro n n' b b' h h' hemail
    rcases hfrom h with ⟨a, rfl, hn, hnew, rfl⟩ | ⟨b₀, hb₀, hacc⟩
    · rcases hfrom h' with ⟨a', ha', hn', -, rfl⟩ | ⟨b₀', hb₀', hacc'⟩
      · rw [← hn, ← hn', Request.register.inj ha']
      · rw [hacc'] at hemail
        exact absurd hemail.symm (hfresh hnew hb₀')
    · rcases hfrom h' with ⟨a', rfl, -, hnew', rfl⟩ | ⟨b₀', hb₀', hacc'⟩
      · rw [hacc] at hemail
        exact absurd hemail (hfresh hnew' hb₀)
      · rw [hacc, hacc'] at hemail
        exact hr.distinct hb₀ hb₀' hemail
  · intro n b h
    exact forall_mailbox_step Mailbox.routable_initial (fun _ q₀ hb => hb.step q₀) hr.routable q h

/-! ## All requests -/

theorem mailbox?_empty (n : String) : empty.mailbox? n = none := Std.ExtTreeMap.getElem?_empty

theorem sound_empty : empty.Sound where
  named h := nomatch (mailbox?_empty _).symm.trans h
  distinct h := nomatch (mailbox?_empty _).symm.trans h
  routable h := nomatch (mailbox?_empty _).symm.trans h

/-- **A roster stays sound whatever it is asked for.** -/
theorem Sound.run (hr : r.Sound) (qs : List Request) : (r.run qs).Sound := by
  induction qs generalizing r with
  | nil => exact hr
  | cons q qs ih => exact ih (hr.step q)

theorem forall_mailbox_run {P : Mailbox → Prop} (hinitial : ∀ a, P (.initial a))
    (hstep : ∀ b q, P b → P (b.step q)) (hr : ∀ {n b}, r.mailbox? n = some b → P b)
    (qs : List Request) (h : (r.run qs).mailbox? n = some b) : P b := by
  induction qs generalizing r with
  | nil => exact hr h
  | cons q qs ih => exact ih (fun hb => forall_mailbox_step hinitial hstep hr q hb) h

theorem requestsFor_cons (n : String) (q : Request) (qs : List Request) :
    requestsFor n (q :: qs) = requestsFor n [q] ++ requestsFor n qs := by
  cases q with
  | register a => rfl
  | edit name q =>
    rw [requestsFor, requestsFor]
    split_ifs <;> rfl

theorem requestsFor_append (n : String) (qs qs' : List Request) :
    requestsFor n (qs ++ qs') = requestsFor n qs ++ requestsFor n qs' := by
  induction qs with
  | nil => rfl
  | cons q qs ih =>
    rw [List.cons_append, requestsFor_cons n q, ih, requestsFor_cons n q qs, List.append_assoc]

/-- Each mailbox sees its part of the requests in another order too. -/
theorem requestsFor_perm {qs qs' : List Request} (hperm : qs.Perm qs') (n : String) :
    (requestsFor n qs).Perm (requestsFor n qs') := by
  induction hperm with
  | nil => exact .nil
  | @cons q qs qs' _ ih =>
    rw [requestsFor_cons n q qs, requestsFor_cons n q qs']
    exact ih.append_left _
  | swap q q' qs =>
    rw [requestsFor_cons n q' (q :: qs), requestsFor_cons n q qs, requestsFor_cons n q (q' :: qs),
      requestsFor_cons n q' qs, ← List.append_assoc, ← List.append_assoc]
    exact List.perm_append_comm.append_right _
  | trans _ _ ih ih' => exact ih.trans ih'

theorem mem_requestsFor {q : Mailbox.Request} {qs : List Request} :
    q ∈ requestsFor n qs ↔ .edit n q ∈ qs := by
  induction qs with
  | nil => simp [requestsFor]
  | cons q' qs ih =>
    cases q' with
    | register a => simp [requestsFor, ih]
    | edit name q' =>
      rw [requestsFor, List.mem_cons]
      split_ifs with hn
      · rw [List.mem_cons, ih, hn]
        simp
      · rw [ih]
        simp [Ne.symm hn]

/-- **Each mailbox sees the requests for its account and no others.** -/
theorem mailbox?_run_of_some (h : r.mailbox? n = some b) (qs : List Request) :
    (r.run qs).mailbox? n = some (b.run (requestsFor n qs)) := by
  induction qs generalizing r b with
  | nil => exact h
  | cons q qs ih =>
    rw [run_cons, ih (mailbox?_step_of_some h q), requestsFor_cons n q qs, Mailbox.run_append]

theorem mailbox?_run_of_none {qs : List Request} (h : r.mailbox? n = none)
    (hqs : ∀ a, .register a ∉ qs) : (r.run qs).mailbox? n = none := by
  induction qs generalizing r with
  | nil => exact h
  | cons q qs ih =>
    have hrest : ∀ a, .register a ∉ qs := fun a ha => hqs a (List.mem_cons_of_mem q ha)
    cases q with
    | register a => exact absurd List.mem_cons_self (hqs a)
    | edit name q =>
      have hstep : (r.step (.edit name q)).mailbox? n = none := by
        rw [step, mailbox?_modify, h]
        split_ifs <;> rfl
      exact ih hstep hrest

/-- Two sequences of requests that do the same to each mailbox do the same to the roster. -/
theorem run_congr {qs qs' : List Request} (hqs : ∀ a, .register a ∉ qs)
    (hqs' : ∀ a, .register a ∉ qs') (h : ∀ n b, r.mailbox? n = some b →
      b.run (requestsFor n qs) = b.run (requestsFor n qs')) : r.run qs = r.run qs' := by
  apply ext_mailbox?
  intro n
  cases hb : r.mailbox? n with
  | none => rw [mailbox?_run_of_none hb hqs, mailbox?_run_of_none hb hqs']
  | some b => rw [mailbox?_run_of_some hb, mailbox?_run_of_some hb, h n b hb]

theorem accounts_eq (r : Roster) :
    r.accounts = (r.mailboxes.map fun _ b => b.account).toList.map Prod.snd := by
  rw [accounts, Std.ExtTreeMap.toList_map, List.map_map]
  rfl

/-- Only accounts matter for the list of them. -/
theorem accounts_congr {r' : Roster} (h : ∀ n, r'.account? n = r.account? n) :
    r'.accounts = r.accounts := by
  have hmap : (r'.mailboxes.map fun _ b => b.account) = r.mailboxes.map fun _ b => b.account := by
    apply Std.ExtTreeMap.ext_getElem?
    intro n
    rw [Std.ExtTreeMap.getElem?_map, Std.ExtTreeMap.getElem?_map]
    exact h n
  rw [accounts_eq, hmap, ← accounts_eq]

theorem account?_step_edit (r : Roster) (name : String) (q : Mailbox.Request) (n : String) :
    (r.step (.edit name q)).account? n = r.account? n := by
  rw [account?, step, mailbox?_modify, account?]
  split_ifs
  · rw [Option.map_map]
    congr 1
    funext b
    exact Mailbox.account_step b q
  · rfl

/-- **Requests on mailboxes do not change the accounts.** -/
theorem accounts_step_edit (r : Roster) (name : String) (q : Mailbox.Request) :
    (r.step (.edit name q)).accounts = r.accounts := accounts_congr (account?_step_edit r name q)

theorem account?_run {qs : List Request} (hqs : ∀ a, .register a ∉ qs) (n : String) :
    (r.run qs).account? n = r.account? n := by
  induction qs generalizing r with
  | nil => rfl
  | cons q qs ih =>
    have hrest : ∀ a, .register a ∉ qs := fun a ha => hqs a (List.mem_cons_of_mem q ha)
    cases q with
    | register a => exact absurd List.mem_cons_self (hqs a)
    | edit name q => rw [run_cons, ih hrest, account?_step_edit]

theorem accounts_run {qs : List Request} (hqs : ∀ a, .register a ∉ qs) :
    (r.run qs).accounts = r.accounts := accounts_congr (account?_run hqs)

theorem findByEmail_step_edit (r : Roster) (name : String) (q : Mailbox.Request)
    (email : String) : (r.step (.edit name q)).findByEmail email = r.findByEmail email := by
  rw [findByEmail, accounts_step_edit, findByEmail]

end Roster

end SortingOffice
