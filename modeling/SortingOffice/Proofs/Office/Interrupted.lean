import SortingOffice.Proofs.Mailbox.Filing
import SortingOffice.Proofs.Office.Effect

/-!
# Deliveries that are interrupted

An office may be opened with a roster that it has not filled itself. No account with a blank name
can be added to an office, but to a roster it can, and it receives no mail. So a mail to it is kept
and delivered to the recipients in front of it before sending fails.

* `Office.Inherited`: the offices that requests lead to from any roster.
* `exists_send_eq_error_iff`: when sending fails.
* `after_filing_eq_self_iff`: when keeping and delivering a mail changes nothing.
* **`Inherited.send_fails_unchanged_iff`**: when sending fails, and when it leaves the office as it
  was.
* **`not_forall_send_fails_unchanged`**: it does not always do so.
-/

namespace SortingOffice

namespace Office

/-- The offices that requests lead to from an office with accounts on its roster already. -/
inductive Inherited : Office → Prop
  | opened {s : Settings} {o : Office} (qs : List Roster.Request) :
      openWith (Roster.empty.run qs) s = .ok o → Inherited o
  | perform {o : Office} (q : Request) : Inherited o → Inherited (o.perform q).state

/-- An account has kept a mail, and others have it where it would be filed on arrival. -/
def Filed (o : Office) (name : String) (kept arriving : Mail) (names : List String) : Prop :=
  (∀ b ∈ o.roster.mailbox? name, b.folders.Holds .sent kept) ∧
    ∀ n ∈ names, ∀ b ∈ o.roster.mailbox? n, b.folders.Holds (b.placeFor arriving) arriving

instance (o : Office) (name : String) (kept arriving : Mail) (names : List String) :
    Decidable (o.Filed name kept arriving names) :=
  inferInstanceAs <| Decidable ((∀ b ∈ o.roster.mailbox? name, b.folders.Holds .sent kept) ∧
    ∀ n ∈ names, ∀ b ∈ o.roster.mailbox? n, b.folders.Holds (b.placeFor arriving) arriving)

variable {o : Office} {n name header content : String} {names : List String} {a : Account}
  {h : Header} {m m' : Mail} {fault : Fault}

theorem Inherited.sound (ho : o.Inherited) : o.roster.Sound := by
  induction ho with
  | opened qs h =>
    rw [(openWith_eq_ok.1 h).2]
    exact Roster.sound_empty.run qs
  | @perform o q _ ih =>
    obtain ⟨qs, hstate, -⟩ := exists_after o q
    rw [hstate]
    exact ih.run qs

/-! ## What sending does -/

theorem exists_verdict_eq_error_iff :
    (∃ fault, verdict names = .error fault) ↔ ∃ n ∈ names, Text.isBlankText n = true := by
  rw [verdict, ← List.any_eq_true]
  cases names.any Text.isBlankText <;> simp

/-- **When sending fails**: if the check fails, or if a recipient has a blank name. -/
theorem exists_send_eq_error_iff (hr : o.roster.Sound) :
    (∃ fault, (o.send name header content).answer = .error fault) ↔
      (∃ fault, o.checkMail name header content = .error fault) ∨
      ∃ a h, o.checkMail name header content = .ok (a, h) ∧
        o.settings.deliverLocally = true ∧ ∃ n b, o.roster.mailbox? n = some b ∧
          b.account.email ∈ h.recipients ∧ Text.isBlankText n = true := by
  cases hcheck : o.checkMail name header content with
  | error fault =>
    rw [send_of_error hcheck]
    simp
  | ok x =>
    obtain ⟨a, h⟩ := x
    rw [send_eq_of_roster hr hcheck, exists_verdict_eq_error_iff]
    simp only [mem_addressees hr]
    constructor
    · rintro ⟨n, ⟨hlocal, b, hb, hmem⟩, hn⟩
      exact .inr ⟨a, h, rfl, hlocal, n, b, hb, hmem, hn⟩
    · rintro (⟨fault, hfault⟩ | ⟨a', h', hcheck', hlocal, n, b, hb, hmem, hn⟩)
      · cases hfault
      · cases hcheck'
        exact ⟨n, ⟨hlocal, b, hb, hmem⟩, hn⟩

/-! ## When nothing changes -/

theorem after_eq_self_iff {qs : List Roster.Request} (hqs : ∀ a, .register a ∉ qs) :
    o.after qs = o ↔
      ∀ n b, o.roster.mailbox? n = some b → b.run (Roster.requestsFor n qs) = b := by
  have hroster : o.after qs = o ↔ o.roster.run qs = o.roster := by
    cases o
    simp [after]
  rw [hroster]
  constructor
  · intro hrun n b hb
    have hb' := Roster.mailbox?_run_of_some hb qs
    rw [hrun, hb] at hb'
    exact (Option.some.inj hb').symm
  · exact fun hall => Roster.run_congr hqs (fun _ => List.not_mem_nil) hall

/-- **When keeping and delivering a mail changes nothing**: if it is all done already. -/
theorem after_filing_eq_self_iff (hr : o.roster.Sound) :
    o.after (.edit name (.recordSent m) :: deliveries m' names) = o ↔
      o.Filed name m m' names := by
  have hregister : ∀ a, .register a ∉ Roster.Request.edit name (.recordSent m) ::
      deliveries m' names := by
    simp [register_notMem_deliveries]
  have hmem {n : String} {q : Mailbox.Request} : q ∈ Roster.requestsFor n
      (.edit name (.recordSent m) :: deliveries m' names) ↔
        (n = name ∧ q = .recordSent m) ∨ (n ∈ names ∧ q = .deliver m') := by
    rw [Roster.mem_requestsFor, List.mem_cons, deliveries, List.mem_map]
    simp [eq_comm]
  have hfiled {n : String} (b : Mailbox) : ∀ q ∈ Roster.requestsFor n
      (.edit name (.recordSent m) :: deliveries m' names), (b.filed? q).isSome = true := by
    intro q hq
    rcases hmem.1 hq with ⟨-, rfl⟩ | ⟨-, rfl⟩ <;> rfl
  rw [after_eq_self_iff hregister]
  constructor
  · intro hall
    refine ⟨fun b hb => ?_, fun n hn b hb => ?_⟩
    · have hrun := (Mailbox.run_eq_self_iff (hr.routable hb) (hfiled b)).1 (hall name b hb)
      exact hrun _ (hmem.2 (.inl ⟨rfl, rfl⟩)) .sent m rfl
    · have hrun := (Mailbox.run_eq_self_iff (hr.routable hb) (hfiled b)).1 (hall n b hb)
      exact hrun _ (hmem.2 (.inr ⟨hn, rfl⟩)) _ m' rfl
  · rintro ⟨hsent, harrived⟩ n b hb
    rw [Mailbox.run_eq_self_iff (hr.routable hb) (hfiled b)]
    intro q hq p m₀ hq'
    rcases hmem.1 hq with ⟨rfl, rfl⟩ | ⟨hn, rfl⟩
    · cases hq'
      exact hsent b hb
    · cases hq'
      exact harrived n hn b hb

/-! ## Sending that fails -/

/-- **When sending fails, and when it then leaves the office as it was.** -/
theorem Inherited.send_fails_unchanged_iff (ho : o.Inherited) (name header content : String) :
    ((∃ fault, (o.send name header content).answer = .error fault) ↔
      (∃ fault, o.checkMail name header content = .error fault) ∨
      ∃ a h, o.checkMail name header content = .ok (a, h) ∧
        o.settings.deliverLocally = true ∧ ∃ n b, o.roster.mailbox? n = some b ∧
          b.account.email ∈ h.recipients ∧ Text.isBlankText n = true) ∧
    ∀ fault, (o.send name header content).answer = .error fault →
      ((o.send name header content).state = o ↔
        o.checkMail name header content = .error fault ∨
        ∃ a h, o.checkMail name header content = .ok (a, h) ∧
          o.Filed name (.ofHeader h (some a) content) (o.arriving h content)
            (served (o.addressees h))) := by
  refine ⟨exists_send_eq_error_iff ho.sound, ?_⟩
  intro fault hfault
  cases hcheck : o.checkMail name header content with
  | error fault' =>
    rw [send_of_error hcheck] at hfault ⊢
    cases hfault
    exact iff_of_true rfl (.inl rfl)
  | ok x =>
    obtain ⟨a, h⟩ := x
    rw [send_eq_of_roster ho.sound hcheck, after_filing_eq_self_iff ho.sound]
    constructor
    · exact fun hfiled => .inr ⟨a, h, rfl, hfiled⟩
    · rintro (hcheck' | ⟨a', h', hcheck', hfiled⟩)
      · cases hcheck'
      · cases hcheck'
        exact hfiled

/-- An office that was opened with an account without a name. -/
def unnamed : Office :=
  ⟨Roster.empty.run [.register ⟨"a@x.com", "a"⟩, .register ⟨"b@x.com", " "⟩], .standard⟩

theorem inherited_unnamed : unnamed.Inherited := .opened _ (openWith_eq_ok.2 ⟨rfl, rfl⟩)

/-- The same mail again fails again, but it is in all its places already. -/
theorem send_again_unchanged :
    ∃ o : Office, o ≠ unnamed ∧ o = (unnamed.send "a" letterToBoth.toText "hi").state ∧
      (o.send "a" letterToBoth.toText "hi").state = o := by
  let o : Office := (unnamed.send "a" letterToBoth.toText "hi").state
  have ho : o.Inherited := inherited_unnamed.perform (.send "a" letterToBoth.toText "hi")
  have hanswer : (o.send "a" letterToBoth.toText "hi").answer =
      .error (.argument (.blank .accountName)) := by decide +kernel
  have hcheck : o.checkMail "a" letterToBoth.toText "hi" =
      .ok (⟨"a@x.com", "a"⟩, letterToBoth) := by decide +kernel
  have hfiled : o.Filed "a" (.ofHeader letterToBoth (some ⟨"a@x.com", "a"⟩) "hi")
      (o.arriving letterToBoth "hi") (served (o.addressees letterToBoth)) := by
    decide +kernel
  exact ⟨o, by decide +kernel, rfl,
    ((ho.send_fails_unchanged_iff "a" letterToBoth.toText "hi").2 _ hanswer).2
      (.inr ⟨_, _, hcheck, hfiled⟩)⟩

/-- **Sending that fails may change a mailbox.** The mail is kept before the blank name of the
recipient is found. -/
theorem not_forall_send_fails_unchanged :
    ¬ ∀ (o : Office) (name header content : String) (fault : Fault), o.Inherited →
      (o.send name header content).answer = .error fault →
      ∀ n, (o.send name header content).state.roster.mailbox? n = o.roster.mailbox? n := by
  intro hclaim
  have hunchanged := hclaim unnamed "a" (letterFrom "a@x.com").toText "hi"
    (.argument (.blank .accountName)) inherited_unnamed (by decide +kernel) "a"
  revert hunchanged
  decide +kernel

end Office

end SortingOffice
