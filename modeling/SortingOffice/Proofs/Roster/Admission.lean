import Mathlib.Data.List.Perm.Basic
import SortingOffice.Proofs.Roster.Accounts

/-!
# The accounts of a roster

Accounts come one after the other and are accepted or refused, while the mailboxes of those that are
accepted change. The roster is at all times made of the accepted accounts, whatever has happened to
the mailboxes: a new name and a new address are all that an account needs.

* `Account.Differs`, **`pairwise_accepted`**: no two accepted accounts have the same name or the same
  address.
* `Roster.accepted`, **`mem_accounts_run`**: the accounts that requests bring in are those that are
  on the roster.
* **`mailbox?_run_eq_some_iff`**: each mailbox is that of an accepted account, with what happened to
  it since.
* `perm_accepted`, `pairwise_accounts`: the list of accounts.
* `checkNew_eq`, **`registration_run_empty`**: which accounts are accepted behind any requests, and
  how they are found.
-/

namespace SortingOffice

/-- Two accounts have different names and different addresses. -/
def Account.Differs (a c : Account) : Prop := a.name ≠ c.name ∧ a.email ≠ c.email

namespace Roster

/-- The account that a request brings in, if it does. -/
def newcomers (r : Roster) : Request → List Account
  | .register a =>
    match (r.register a).answer with
    | .error _ => []
    | .ok a => [a]
  | .edit _ _ => []

/-- The accounts that a sequence of requests brings in, in the order in which they come. -/
def accepted (r : Roster) : List Request → List Account
  | [] => []
  | q :: qs => r.newcomers q ++ (r.step q).accepted qs

variable {r : Roster} {a c : Account} {n email : String} {b : Mailbox}

/-! ## One account -/

theorem answer_register_eq_ok : (r.register a).answer = .ok a ↔ r.checkNew a = .ok () := by
  rw [register]
  cases r.checkNew a with
  | error fault => simp
  | ok u => simp

theorem newcomers_of_error {fault : Fault} (h : r.checkNew a = .error fault) :
    r.newcomers (.register a) = [] := by
  rw [newcomers, register_of_error h]

theorem newcomers_of_ok (h : r.checkNew a = .ok ()) : r.newcomers (.register a) = [a] := by
  rw [newcomers, answer_register_eq_ok.2 h]

theorem mem_newcomers {q : Request} :
    a ∈ r.newcomers q ↔ q = .register a ∧ r.checkNew a = .ok () := by
  cases q with
  | register c =>
    cases h : r.checkNew c with
    | error fault =>
      rw [newcomers_of_error h]
      simp only [List.not_mem_nil, Request.register.injEq, false_iff, not_and]
      rintro rfl hok
      rw [h] at hok
      cases hok
    | ok u =>
      rw [newcomers_of_ok h, List.mem_singleton, Request.register.injEq]
      constructor
      · rintro rfl
        exact ⟨rfl, h⟩
      · rintro ⟨rfl, -⟩
        rfl
  | edit name q => simp [newcomers]

/-- A new account differs from all others. -/
theorem differs_of_checkNew (h : r.checkNew a = .ok ()) (hr : r.Sound) (hc : c ∈ r.accounts) :
    c.Differs a := by
  obtain ⟨hname, hemail⟩ := checkNew_eq_ok.1 h
  obtain ⟨n, b, hb, rfl⟩ := mem_accounts.1 hc
  refine ⟨?_, findByEmail_eq_none_iff.1 hemail n b hb⟩
  intro hn
  rw [← hn, hr.named hb, hb] at hname
  cases hname

theorem mem_accounts_step (q : Request) :
    a ∈ (r.step q).accounts ↔ a ∈ r.accounts ∨ a ∈ r.newcomers q := by
  cases q with
  | register c =>
    rw [step]
    cases h : r.checkNew c with
    | error fault =>
      rw [register_of_error h, newcomers_of_error h]
      simp
    | ok u =>
      rw [newcomers_of_ok h, List.mem_singleton, mem_accounts, mem_accounts]
      constructor
      · rintro ⟨n, b, hb, rfl⟩
        rw [mailbox?_register_of_ok h] at hb
        split_ifs at hb with hn
        · cases hb
          exact .inr rfl
        · exact .inl ⟨n, b, hb, rfl⟩
      · rintro (⟨n, b, hb, rfl⟩ | rfl)
        · exact ⟨n, b, mailbox?_step_of_some hb (.register c), rfl⟩
        · refine ⟨a.name, .initial a, ?_, rfl⟩
          rw [mailbox?_register_of_ok h, if_pos rfl]
  | edit name q =>
    rw [accounts_step_edit]
    simp [newcomers]

/-! ## All accounts -/

/-- **The accounts behind requests are those in front of them and those that they bring in.** -/
theorem mem_accounts_run (r : Roster) (qs : List Request) :
    a ∈ (r.run qs).accounts ↔ a ∈ r.accounts ∨ a ∈ r.accepted qs := by
  induction qs generalizing r with
  | nil => simp [accepted]
  | cons q qs ih => rw [run_cons, ih, mem_accounts_step, accepted, List.mem_append, or_assoc]

/-- **Every account that is accepted differs from those that are there**, and from those that are
accepted before it. -/
theorem pairwise_accepted (hr : r.Sound) (qs : List Request) :
    (r.accepted qs).Pairwise Account.Differs ∧
      ∀ c ∈ r.accounts, ∀ a ∈ r.accepted qs, c.Differs a := by
  induction qs generalizing r with
  | nil => exact ⟨.nil, fun _ _ _ h => nomatch h⟩
  | cons q qs ih =>
    obtain ⟨hpairwise, hbehind⟩ := ih (hr.step q)
    rw [accepted]
    refine ⟨List.pairwise_append.2 ⟨?_, hpairwise, ?_⟩, ?_⟩
    · cases q with
      | register a =>
        rw [newcomers]
        cases (r.register a).answer with
        | error fault => exact .nil
        | ok c => exact List.pairwise_singleton _ c
      | edit name q => exact .nil
    · intro c hc a ha
      exact hbehind c ((mem_accounts_step q).2 (.inr hc)) a ha
    · intro c hc a ha
      rcases List.mem_append.1 ha with ha | ha
      · exact differs_of_checkNew (mem_newcomers.1 ha).2 hr hc
      · exact hbehind c ((mem_accounts_step q).2 (.inl hc)) a ha

/-- The accounts are in the order of their names. -/
theorem pairwise_accounts (hr : r.Sound) :
    r.accounts.Pairwise fun a c => a.name < c.name := by
  rw [accounts, List.pairwise_map]
  refine List.Pairwise.imp_of_mem ?_ r.mailboxes.ordered_keys_toList
  intro e e' he he' hlt
  rw [hr.named (Std.ExtTreeMap.mem_toList_iff_getElem?_eq_some.1 he),
    hr.named (Std.ExtTreeMap.mem_toList_iff_getElem?_eq_some.1 he')]
  exact compareOfLessAndEq_eq_lt.1 hlt

theorem accounts_empty : empty.accounts = [] := rfl

theorem mem_accounts_run_empty (qs : List Request) :
    a ∈ (empty.run qs).accounts ↔ a ∈ empty.accepted qs := by
  rw [mem_accounts_run, accounts_empty]
  simp

/-- The list of accounts has each accepted account once. -/
theorem perm_accepted (qs : List Request) :
    (empty.run qs).accounts.Perm (empty.accepted qs) := by
  have haccounts : (empty.run qs).accounts.Nodup := by
    refine (pairwise_accounts (sound_empty.run qs)).imp ?_
    rintro a c hlt rfl
    exact String.lt_irrefl _ hlt
  have haccepted : (empty.accepted qs).Nodup := by
    refine (pairwise_accepted sound_empty qs).1.imp ?_
    rintro a c hdiffers rfl
    exact hdiffers.1 rfl
  rw [List.perm_ext_iff_of_nodup haccounts haccepted]
  intro a
  exact mem_accounts_run_empty qs

/-! ## Mailboxes -/

/-- **Where a mailbox comes from**: it was there, or its account was accepted. In both cases it saw
the requests that came for it since. -/
theorem mailbox?_run_eq_some_iff (r : Roster) (qs : List Request) :
    (r.run qs).mailbox? n = some b ↔
      (∃ b₀, r.mailbox? n = some b₀ ∧ b = b₀.run (requestsFor n qs)) ∨
      ∃ before a after, qs = before ++ .register a :: after ∧ (r.run before).checkNew a = .ok () ∧
        a.name = n ∧ b = (Mailbox.initial a).run (requestsFor n after) := by
  constructor
  · intro h
    induction qs generalizing r with
    | nil => exact .inl ⟨b, h, rfl⟩
    | cons q qs ih =>
      rcases ih (r.step q) h with ⟨b₁, hb₁, rfl⟩ | ⟨before, a, after, rfl, hnew, hn, rfl⟩
      · rcases mailbox?_step_cases q hb₁ with ⟨a, rfl, hn, hnew, rfl⟩ | ⟨b₀, hb₀, -⟩
        · exact .inr ⟨[], a, qs, rfl, hnew, hn, rfl⟩
        · rw [mailbox?_step_of_some hb₀] at hb₁
          cases hb₁
          refine .inl ⟨b₀, hb₀, ?_⟩
          rw [requestsFor_cons n q qs, Mailbox.run_append]
      · exact .inr ⟨q :: before, a, after, rfl, hnew, hn, rfl⟩
  · rintro (⟨b₀, hb₀, rfl⟩ | ⟨before, a, after, rfl, hnew, rfl, rfl⟩)
    · exact mailbox?_run_of_some hb₀ qs
    · rw [run_append, run_cons]
      apply mailbox?_run_of_some
      rw [step, mailbox?_register_of_ok hnew, if_pos rfl]

/-! ## All requests -/

theorem contains_iff_accounts (hr : r.Sound) :
    r.contains n = true ↔ ∃ c ∈ r.accounts, c.name = n := by
  rw [contains_eq_account?, Option.isSome_iff_exists]
  exact exists_congr fun c => account?_eq_some_iff hr

theorem isSome_findByEmail : (r.findByEmail email).isSome = true ↔
    ∃ c ∈ r.accounts, c.email = email := by
  rw [findByEmail, List.find?_isSome]
  simp only [beq_iff_eq]

/-- An account is refused for its name, or else for its address. -/
theorem checkNew_eq (hr : r.Sound) (a : Account) : r.checkNew a =
    if ∃ c ∈ r.accounts, c.name = a.name then .error (.nameTaken a.name)
    else if ∃ c ∈ r.accounts, c.email = a.email then .error (.emailTaken a.email)
    else .ok () := by
  rw [checkNew]
  simp only [contains_iff_accounts hr, isSome_findByEmail]

/-- **Which accounts are accepted, and how they are found.** Behind any requests to a roster without
accounts, an account is refused exactly if an accepted account has its name, or else its address,
and then the roster is the same. Otherwise it gets a new mailbox, and no other mailbox is different.
The accounts are the accepted ones, each of them once, in the order of their names. The mailbox with
a name is that of the accepted account with this name, with the requests for it since it was
accepted, and an address finds the one accepted account that has it. -/
theorem registration_run_empty (qs : List Request) :
    let r := empty.run qs
    let as := empty.accepted qs
    (∀ a, if ∃ c ∈ as, c.name = a.name then r.register a = ⟨.error (.nameTaken a.name), r⟩
      else if ∃ c ∈ as, c.email = a.email then r.register a = ⟨.error (.emailTaken a.email), r⟩
      else (r.register a).answer = .ok a ∧ ∀ n, (r.register a).state.mailbox? n =
        if a.name = n then some (.initial a) else r.mailbox? n) ∧
    (∀ a n b, r.mailbox? n = some b → (r.register a).state.mailbox? n = some b) ∧
    (as.Pairwise Account.Differs ∧ r.accounts.Perm as ∧
      r.accounts.Pairwise fun a c => a.name < c.name) ∧
    (∀ n a, r.account? n = some a ↔ a ∈ as ∧ a.name = n) ∧
    (∀ n b, r.mailbox? n = some b ↔ ∃ before a after, qs = before ++ .register a :: after ∧
      ((empty.run before).register a).answer = .ok a ∧ a.name = n ∧
      b = (Mailbox.initial a).run (requestsFor n after)) ∧
    ∀ email a, r.findByEmail email = some a ↔ a ∈ as ∧ a.email = email := by
  intro r as
  have hr : r.Sound := sound_empty.run qs
  have hmem : ∀ a, a ∈ r.accounts ↔ a ∈ as := fun a => mem_accounts_run_empty qs
  refine ⟨?_, ?_, ⟨(pairwise_accepted sound_empty qs).1, perm_accepted qs, pairwise_accounts hr⟩,
    ?_, ?_, ?_⟩
  · intro a
    have hnew := checkNew_eq hr a
    simp only [hmem] at hnew
    split_ifs at hnew ⊢
    · exact register_of_error hnew
    · exact register_of_error hnew
    · exact ⟨answer_register_eq_ok.2 hnew, mailbox?_register_of_ok hnew⟩
  · intro a n b hb
    exact mailbox?_step_of_some hb (.register a)
  · intro n a
    rw [account?_eq_some_iff hr, hmem]
  · intro n b
    simp only [answer_register_eq_ok]
    rw [mailbox?_run_eq_some_iff, mailbox?_empty]
    simp only [reduceCtorEq, false_and, exists_false, false_or]
  · intro email a
    rw [findByEmail_eq_some_iff_mem hr, hmem]

end Roster

end SortingOffice
