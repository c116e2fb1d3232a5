import SortingOffice.Office
import SortingOffice.Proofs.Roster.Run
import SortingOffice.Proofs.Rule.Fits

/-!
# Checks of an office

Each request is checked before anything is done. A check passes if all its parts pass, whatever
their order.

* `demand_eq_ok`, `checkPriority_eq_ok`: the parts.
* `checkAccount_eq_ok`, `checkFolder_eq_ok`, **`checkRule_eq_ok`**, **`checkMail_eq_ok`**: when the
  checks pass.
* **`exists_checkMail_eq_error`**: when a mail is refused.
-/

namespace SortingOffice

namespace Office

variable {o : Office} {name path definition header content value : String} {priority : Int32}

/-! ## Parts -/

theorem bind_eq_ok {α β : Type} {x : Except Fault α} {f : α → Except Fault β} {b : β} :
    x >>= f = .ok b ↔ ∃ a, x = .ok a ∧ f a = .ok b := by
  cases x <;> simp [bind, Except.bind]

theorem mapError_eq_ok {α ε : Type} {x : Except ε α} {f : ε → Fault} {a : α} :
    x.mapError f = .ok a ↔ x = .ok a := by
  cases x <;> simp [Except.mapError]

theorem discard_eq_ok {α : Type} {x : Except Fault α} {u : Unit} :
    discard x = .ok u ↔ ∃ a, x = .ok a := by
  cases x <;> simp [discard, Functor.discard, Functor.mapConst, Except.map]

theorem demand_eq_ok {argument : Argument} {u : Unit} :
    demand argument value = .ok u ↔ Text.isBlankText value = false := by
  rw [demand, mapError_eq_ok, Argument.check]
  cases Text.isBlankText value <;> simp

theorem checkPriority_eq_ok {least greatest : Int32} {u : Unit} :
    checkPriority priority least greatest = .ok u ↔
      least ≤ priority ∧ priority ≤ greatest := by
  rw [checkPriority]
  split_ifs with h <;> grind

/-! ## Arguments of requests -/

theorem checkAccount_eq_ok {email : String} {u : Unit} : checkAccount name email = .ok u ↔
    Text.isBlankText name = false ∧ Text.isBlankText email = false := by
  simp only [checkAccount, bind_eq_ok, demand_eq_ok, exists_const]

theorem checkFolder_eq_ok {u : Unit} : checkFolder name path = .ok u ↔
    Text.isBlankText name = false ∧ Text.isBlankText path = false := by
  simp only [checkFolder, bind_eq_ok, demand_eq_ok, exists_const]

theorem checkRule_eq_ok {r : Rule} : o.checkRule name path definition priority = .ok r ↔
    Text.isBlankText name = false ∧ Text.isBlankText path = false ∧
      Text.isBlankText definition = false ∧
      (o.settings.leastPriority ≤ priority ∧ priority ≤ o.settings.greatestPriority) ∧
      ∃ b, o.roster.mailbox? name = some b ∧ b.folders.contains ⟨path⟩ = true ∧
        Rule.read ⟨path⟩ definition priority = .ok r := by
  simp only [checkRule, bind_eq_ok, mapError_eq_ok, demand_eq_ok, checkPriority_eq_ok,
    discard_eq_ok, FolderTree.exists_find_iff, Roster.find_eq_ok, exists_const]

theorem checkMail_eq_ok {a : Account} {h : Header} :
    o.checkMail name header content = .ok (a, h) ↔
      Text.isBlankText name = false ∧ Text.isBlankText header = false ∧
        Text.isBlankText content = false ∧
        ∃ b, o.roster.mailbox? name = some b ∧ Header.read header = .ok h ∧ b.account = a := by
  simp only [checkMail, bind_eq_ok, mapError_eq_ok, demand_eq_ok, Roster.find_eq_ok, exists_const]
  simp [pure, Except.pure, and_comm]

theorem exists_eq_error_iff {α : Type} {x : Except Fault α} :
    (∃ fault, x = .error fault) ↔ ¬ ∃ a, x = .ok a := by
  cases x <;> simp

theorem exists_read_eq_ok : (∃ h, Header.read header = .ok h) ↔
    ¬ ∃ reason, Moment.readMinuteText (Text.valueAfter Header.receivedLabel header) =
      .error reason := by
  cases h : Moment.readMinuteText (Text.valueAfter Header.receivedLabel header) <;>
    simp [Header.read, h]

theorem exists_checkMail_eq_ok : (∃ x, o.checkMail name header content = .ok x) ↔
    Text.isBlankText name = false ∧ Text.isBlankText header = false ∧
      Text.isBlankText content = false ∧ (∃ b, o.roster.mailbox? name = some b) ∧
      ∃ h, Header.read header = .ok h := by
  constructor
  · rintro ⟨⟨a, h⟩, hcheck⟩
    obtain ⟨hname, hheader, hcontent, b, hb, hread, -⟩ := checkMail_eq_ok.1 hcheck
    exact ⟨hname, hheader, hcontent, ⟨b, hb⟩, h, hread⟩
  · rintro ⟨hname, hheader, hcontent, ⟨b, hb⟩, h, hread⟩
    exact ⟨(b.account, h), checkMail_eq_ok.2 ⟨hname, hheader, hcontent, b, hb, hread, rfl⟩⟩

/-- **When a mail is refused**: for a blank argument, an unknown account, or a time received that
cannot be read. -/
theorem exists_checkMail_eq_error : (∃ fault, o.checkMail name header content = .error fault) ↔
    Text.isBlankText name = true ∨ Text.isBlankText header = true ∨
      Text.isBlankText content = true ∨ o.roster.mailbox? name = none ∨
      ∃ reason, Moment.readMinuteText (Text.valueAfter Header.receivedLabel header) =
        .error reason := by
  rw [exists_eq_error_iff, exists_checkMail_eq_ok, exists_read_eq_ok]
  rw [not_and_or, not_and_or, not_and_or, not_and_or, not_not, not_exists,
    Option.eq_none_iff_forall_ne_some]
  simp only [Bool.not_eq_false, ne_eq]

end Office

end SortingOffice
