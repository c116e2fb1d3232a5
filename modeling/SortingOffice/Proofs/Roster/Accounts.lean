import SortingOffice.Proofs.Roster.Run

/-!
# What depends on the accounts only

Requests look for accounts by name or by address, and a new account is refused if either is taken.
None of this depends on what is in the mailboxes.

* `account?_eq_some_iff`, **`account?_of_mem_iff`**: the accounts by their names are known from the
  set of all accounts.
* `findByEmail_congr`, `checkNew_congr`: the answers to such questions.
* **`account?_step_congr`**: the accounts behind a request.
-/

namespace SortingOffice

namespace Roster

variable {r r' : Roster} {a : Account} {n : String} {b : Mailbox}

/-! ## Accounts by name -/

theorem account?_of_some (h : r.mailbox? n = some b) : r.account? n = some b.account := by
  rw [account?, h, Option.map_some]

theorem mailbox?_eq_none_iff : r.mailbox? n = none ↔ r.account? n = none := by
  rw [account?, Option.map_eq_none_iff]

theorem account?_eq_some_iff (hr : r.Sound) :
    r.account? n = some a ↔ a ∈ r.accounts ∧ a.name = n := by
  rw [account?, Option.map_eq_some_iff, mem_accounts]
  constructor
  · rintro ⟨b, hb, rfl⟩
    exact ⟨⟨n, b, hb, rfl⟩, hr.named hb⟩
  · rintro ⟨⟨n', b, hb, rfl⟩, rfl⟩
    rw [hr.named hb]
    exact ⟨b, hb, rfl⟩

/-- **The accounts by their names are known from the set of all accounts.** -/
theorem account?_of_mem_iff (hr : r.Sound) (hr' : r'.Sound)
    (h : ∀ a, a ∈ r'.accounts ↔ a ∈ r.accounts) (n : String) : r'.account? n = r.account? n := by
  apply Option.ext
  intro a
  rw [account?_eq_some_iff hr', account?_eq_some_iff hr, h]

/-! ## Questions about accounts -/

theorem findByEmail_congr (h : ∀ n, r'.account? n = r.account? n) (email : String) :
    r'.findByEmail email = r.findByEmail email := by
  rw [findByEmail, accounts_congr h, findByEmail]

theorem contains_eq_account? (r : Roster) (n : String) : r.contains n = (r.account? n).isSome := by
  rw [contains, Std.ExtTreeMap.contains_eq_isSome_getElem?, account?, Option.isSome_map, mailbox?]

theorem checkNew_congr (h : ∀ n, r'.account? n = r.account? n) (a : Account) :
    r'.checkNew a = r.checkNew a := by
  rw [checkNew, contains_eq_account?, h, findByEmail_congr h, checkNew, contains_eq_account?]

/-- An account is in both rosters or in neither. -/
theorem mailbox?_cases_of_account? (h : r'.account? n = r.account? n) :
    (r.mailbox? n = none ∧ r'.mailbox? n = none) ∨
      ∃ b b', r.mailbox? n = some b ∧ r'.mailbox? n = some b' ∧ b'.account = b.account := by
  cases hb : r.mailbox? n with
  | none =>
    rw [mailbox?_eq_none_iff.1 hb] at h
    exact .inl ⟨rfl, mailbox?_eq_none_iff.2 h⟩
  | some b =>
    rw [account?_of_some hb, account?, Option.map_eq_some_iff] at h
    obtain ⟨b', hb', haccount⟩ := h
    exact .inr ⟨b, b', rfl, hb', haccount⟩

/-! ## Requests -/

theorem answer_register_congr (h : ∀ n, r'.account? n = r.account? n) (a : Account) :
    (r'.register a).answer = (r.register a).answer := by
  rw [register, checkNew_congr h, register]
  cases r.checkNew a <;> rfl

theorem account?_register_of_ok (h : r.checkNew a = .ok ()) (n : String) :
    (r.register a).state.account? n = if a.name = n then some a else r.account? n := by
  rw [account?, mailbox?_register_of_ok h]
  split_ifs
  · rfl
  · rw [account?]

/-- **The accounts behind a request depend on the accounts in front of it.** -/
theorem account?_step_congr (h : ∀ n, r'.account? n = r.account? n) (q : Request) (n : String) :
    (r'.step q).account? n = (r.step q).account? n := by
  cases q with
  | register a =>
    have hnew := checkNew_congr h a
    rw [step, step]
    cases hcheck : r.checkNew a with
    | error fault =>
      rw [hcheck] at hnew
      rw [register_of_error hcheck, register_of_error hnew]
      exact h n
    | ok u =>
      rw [hcheck] at hnew
      rw [account?_register_of_ok hcheck, account?_register_of_ok hnew, h]
  | edit name q => rw [account?_step_edit, account?_step_edit, h]

end Roster

end SortingOffice
