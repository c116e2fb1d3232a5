import SortingOffice.Proofs.Office.Delivery

/-!
# All or nothing

A request that fails leaves everything as it was. Some requests run checks behind their first
change: a new folder is asked for its parent, the inbox is cleared behind the insertion of a rule,
and a mail is delivered behind the copy that is kept. In a reachable office none of these fails.

* `Outcome.Atomic`, `Outcome.Succeeds`: a failure leaves a state as it was; there is no failure.
* `Mailbox.succeeds_create_ask`, `Mailbox.succeeds_addRule`: the checks in front of the first change
  decide.
* **`Reachable.all_or_nothing`**: the statement for all requests.
-/

namespace SortingOffice

namespace Outcome

variable {σ α β : Type} {s : σ}

/-- There is an answer. -/
def Succeeds (out : Outcome σ α) : Prop := ∃ a, out.answer = .ok a

instance (out : Outcome σ α) : Decidable out.Succeeds :=
  decidable_of_iff (out.answer.isOk = true) <| by
    rw [Succeeds]
    cases out.answer <;> simp [Except.isOk, Except.toBool]

/-- If there is a fault, the state is still `s`. -/
def Atomic (s : σ) (out : Outcome σ α) : Prop := ∀ fault, out.answer = .error fault → out.state = s

theorem succeeds_guarded {check : Except Fault β} {change : β → Outcome σ α} :
    (guarded s check change).Succeeds ↔ ∃ b, check = .ok b ∧ (change b).Succeeds := by
  cases check with
  | error fault => simp [Succeeds]
  | ok b => simp

theorem atomic_error (s : σ) (fault : Fault) : Atomic s (⟨.error fault, s⟩ : Outcome σ α) :=
  fun _ _ => rfl

theorem atomic_guarded {check : Except Fault β} {change : β → Outcome σ α}
    (h : ∀ b, check = .ok b → (change b).Atomic s) : (guarded s check change).Atomic s := by
  cases hcheck : check with
  | error fault => exact atomic_error s fault
  | ok b => exact h b hcheck

theorem Succeeds.atomic {out : Outcome σ α} (h : out.Succeeds) : out.Atomic s := by
  obtain ⟨a, ha⟩ := h
  intro fault hfault
  rw [ha] at hfault
  cases hfault

end Outcome

namespace Mailbox

variable {b : Mailbox}

theorem create_ask_of_ok {p parent : Path} (h : b.folders.parentForNew p = .ok parent) :
    ((b.create p).ask fun b p => (b.folders.parent p).map (·.getD .root)).answer = .ok parent := by
  rw [create_of_ok h, Outcome.answer_ask, Except.bind, FolderTree.parent_link, if_pos rfl]
  rfl

theorem succeeds_create_ask (b : Mailbox) (p : Path) :
    ((b.create p).ask fun b p => (b.folders.parent p).map (·.getD .root)).Succeeds ↔
      ∃ parent, b.folders.parentForNew p = .ok parent := by
  cases h : b.folders.parentForNew p with
  | error fault =>
    rw [create_of_error h]
    simp [Outcome.Succeeds, Except.bind]
  | ok parent =>
    simp [Outcome.Succeeds, -Outcome.answer_ask, create_ask_of_ok h]

theorem succeeds_addRule (b : Mailbox) (r : Rule) :
    (b.addRule r).Succeeds ↔ ∃ book, b.rulebookWith r = .ok book := by
  cases h : b.rulebookWith r with
  | error fault =>
    rw [addRule_of_error h]
    simp [Outcome.Succeeds]
  | ok book =>
    rw [addRule_of_ok h]
    simp [Outcome.Succeeds]

theorem succeeds_deliver (hb : b.Routable) (m : Mail) : (b.deliver m).Succeeds :=
  ⟨b.placeFor m, by rw [deliver_eq hb]⟩

theorem atomic_create_ask (b : Mailbox) (p : Path) :
    ((b.create p).ask fun b p => (b.folders.parent p).map (·.getD .root)).Atomic b := by
  cases h : b.folders.parentForNew p with
  | error fault =>
    rw [create_of_error h]
    exact Outcome.atomic_error b fault
  | ok parent => exact ((succeeds_create_ask b p).2 ⟨parent, h⟩).atomic

theorem atomic_addRule (b : Mailbox) (r : Rule) : (b.addRule r).Atomic b := by
  cases h : b.rulebookWith r with
  | error fault =>
    rw [addRule_of_error h]
    exact Outcome.atomic_error b fault
  | ok book => exact ((succeeds_addRule b r).2 ⟨book, h⟩).atomic

end Mailbox

namespace Office

variable {o : Office} {name : String}

theorem succeeds_onMailbox {α : Type} {request : Mailbox → Outcome Mailbox α} :
    (o.onMailbox name request).Succeeds ↔
      ∃ b, o.roster.mailbox? name = some b ∧ (request b).Succeeds := by
  rw [onMailbox]
  cases hb : o.roster.mailbox? name with
  | none => simp [Outcome.Succeeds, Roster.edit_of_none hb]
  | some b => simp [Outcome.Succeeds, Roster.edit_of_some hb]

theorem atomic_onMailbox {α : Type} {request : Mailbox → Outcome Mailbox α}
    (h : ∀ b, o.roster.mailbox? name = some b → (request b).Atomic b) :
    (o.onMailbox name request).Atomic o := by
  intro fault hfault
  rw [onMailbox] at hfault ⊢
  cases hb : o.roster.mailbox? name with
  | none => rw [Roster.edit_of_none hb]
  | some b =>
    rw [Roster.edit_of_some hb] at hfault ⊢
    rw [Roster.modify_of_fixed hb (h b hb fault hfault)]

theorem atomic_perform (ho : o.Sound) (q : Request) : (o.perform q).Atomic o := by
  cases q with
  | addAccount name email =>
    apply Outcome.atomic_guarded
    intro _ _ fault hfault
    cases hnew : o.roster.checkNew ⟨email, name⟩ with
    | error fault' => rw [Roster.register_of_error hnew]
    | ok u =>
      rw [Roster.register, hnew] at hfault
      cases hfault
  | createFolder name path =>
    apply Outcome.atomic_guarded
    intro _ _
    exact atomic_onMailbox fun b _ => b.atomic_create_ask ⟨path⟩
  | addRule name path definition priority =>
    apply Outcome.atomic_guarded
    intro r _
    exact atomic_onMailbox fun b _ => b.atomic_addRule r
  | receive name header content =>
    apply Outcome.atomic_guarded
    intro x _
    exact atomic_onMailbox fun b hb =>
      (Mailbox.succeeds_deliver (ho.roster.routable hb) _).atomic
  | send name header content =>
    cases hcheck : o.checkMail name header content with
    | error fault =>
      rw [perform, send, hcheck]
      exact Outcome.atomic_error o fault
    | ok x =>
      rw [perform, send_eq ho hcheck]
      exact Outcome.Succeeds.atomic ⟨(), rfl⟩

/-- **Each request succeeds completely or changes nothing.** In a reachable office the state behind
a request that fails is the state in front of it. A folder is created if the checks in front of the
change pass, a rule is added if those do, and sending fails exactly if an argument is blank, the
account is unknown, or the time received cannot be read. -/
theorem Reachable.all_or_nothing (ho : o.Reachable) :
    (∀ q fault, (o.perform q).answer = .error fault → (o.perform q).state = o) ∧
    (∀ name path, (o.createFolder name path).Succeeds ↔
      Text.isBlankText name = false ∧ Text.isBlankText path = false ∧
        ∃ b parent, o.roster.mailbox? name = some b ∧
          b.folders.parentForNew ⟨path⟩ = .ok parent) ∧
    (∀ name path definition priority, (o.addRule name path definition priority).Succeeds ↔
      ∃ r b book, o.checkRule name path definition priority = .ok r ∧
        o.roster.mailbox? name = some b ∧ b.rulebookWith r = .ok book) ∧
    ∀ name header content, (∃ fault, (o.send name header content).answer = .error fault) ↔
      Text.isBlankText name = true ∨ Text.isBlankText header = true ∨
        Text.isBlankText content = true ∨ o.roster.mailbox? name = none ∨
        ∃ reason, Moment.readMinuteText (Text.valueAfter Header.receivedLabel header) =
          .error reason := by
  refine ⟨atomic_perform ho.sound, ?_, ?_, ?_⟩
  · intro name path
    rw [createFolder, Outcome.succeeds_guarded]
    simp only [checkFolder_eq_ok, succeeds_onMailbox, Mailbox.succeeds_create_ask]
    constructor
    · rintro ⟨u, ⟨hname, hpath⟩, b, hb, parent, hparent⟩
      exact ⟨hname, hpath, b, parent, hb, hparent⟩
    · rintro ⟨hname, hpath, b, parent, hb, hparent⟩
      exact ⟨(), ⟨hname, hpath⟩, b, hb, parent, hparent⟩
  · intro name path definition priority
    rw [addRule, Outcome.succeeds_guarded]
    simp only [succeeds_onMailbox, Mailbox.succeeds_addRule]
    constructor
    · rintro ⟨r, hcheck, b, hb, book, hbook⟩
      exact ⟨r, b, book, hcheck, hb, hbook⟩
    · rintro ⟨r, b, book, hcheck, hb, hbook⟩
      exact ⟨r, hcheck, b, hb, book, hbook⟩
  · intro name header content
    rw [← exists_checkMail_eq_error]
    cases hcheck : o.checkMail name header content with
    | error fault =>
      rw [send, hcheck]
      simp
    | ok x =>
      rw [send_eq ho.sound hcheck]
      simp

/-- A folder whose parent is missing is refused, and nothing is changed. -/
theorem createFolder_neighbours_unchanged :
    (neighbours.perform (.createFolder "a" "/inbox/x/y")).state = neighbours :=
  reachable_neighbours.all_or_nothing.1 (.createFolder "a" "/inbox/x/y")
    (.invalidPath ⟨"/inbox/x/y"⟩) (by decide +kernel)

end Office

end SortingOffice
