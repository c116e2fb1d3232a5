import SortingOffice.Proofs.Office.Checks

/-!
# Runs of an office

* `Office.Request`, `Office.perform`, `Office.run`: what an office can be asked to do, and the
  office behind one request or several.
* `Office.Reachable`: the offices that requests lead to.
* `Office.after`, **`exists_after`**: whatever a request does, it is a sequence of requests on the
  roster that the settings allow.
* `Office.Sound`, **`Reachable.sound`**: what holds of every reachable office.
* `Reachable.forall_mailbox`: what holds of every mailbox of it.
-/

namespace SortingOffice

/-- Neither the name nor the address is blank. -/
def Account.Complete (a : Account) : Prop :=
  Text.isBlankText a.name = false ∧ Text.isBlankText a.email = false

/-- Whether a request on the roster keeps to the settings: accounts are complete, and the priority
of each rule is in the range. -/
def Settings.Allows (s : Settings) : Roster.Request → Prop
  | .register a => a.Complete
  | .edit _ (.addRule r) => s.leastPriority ≤ r.priority ∧ r.priority ≤ s.greatestPriority
  | .edit _ _ => True

namespace Office

/-- What an office can be asked to do. -/
inductive Request
  | addAccount (name email : String)
  | createFolder (name path : String)
  | addRule (name path definition : String) (priority : Int32)
  | receive (name header content : String)
  | send (name header content : String)

/-- What a request is answered with. -/
abbrev Request.Answer : Request → Type
  | .addAccount .. => Account
  | .createFolder .. => Path
  | .addRule .. => Nat
  | .receive .. => Path
  | .send .. => Unit

/-- What a request leaves. -/
def perform (o : Office) : (q : Request) → Outcome Office q.Answer
  | .addAccount name email => o.addAccount name email
  | .createFolder name path => o.createFolder name path
  | .addRule name path definition priority => o.addRule name path definition priority
  | .receive name header content => o.receive name header content
  | .send name header content => o.send name header content

/-- The office behind a sequence of requests. -/
def run (o : Office) (qs : List Request) : Office := qs.foldl (fun o q => (o.perform q).state) o

/-- The offices that requests lead to from an office without accounts. -/
inductive Reachable : Office → Prop
  | initial : Reachable .initial
  | opened {s : Settings} {o : Office} : openWith .empty s = .ok o → Reachable o
  | perform {o : Office} (q : Request) : Reachable o → Reachable (o.perform q).state

/-- The office behind requests on its roster. -/
def after (o : Office) (qs : List Roster.Request) : Office :=
  { o with roster := o.roster.run qs }

/-- The settings make sense, and what is on the roster keeps to them. -/
structure Sound (o : Office) : Prop where
  settings : o.settings.check = .ok ()
  roster : o.roster.Sound
  complete : ∀ {n b}, o.roster.mailbox? n = some b → b.account.Complete
  ranged : ∀ {n b}, o.roster.mailbox? n = some b → ∀ r ∈ b.rulebook.rules,
    o.settings.leastPriority ≤ r.priority ∧ r.priority ≤ o.settings.greatestPriority

variable {o : Office} {name header content : String}

@[simp] theorem roster_after (o : Office) (qs : List Roster.Request) :
    (o.after qs).roster = o.roster.run qs := rfl

@[simp] theorem run_nil (o : Office) : o.run [] = o := rfl

@[simp] theorem run_cons (o : Office) (q : Request) (qs : List Request) :
    o.run (q :: qs) = (o.perform q).state.run qs := rfl

theorem after_cons (o : Office) (q : Roster.Request) (qs : List Roster.Request) :
    o.after (q :: qs) = (o.after [q]).after qs := rfl

theorem after_append (o : Office) (qs qs' : List Roster.Request) :
    o.after (qs ++ qs') = (o.after qs).after qs' := by
  rw [after, Roster.run_append]
  rfl

/-! ## What a request does -/

theorem state_onMailbox {α : Type} {request : Mailbox → Outcome Mailbox α} {q : Mailbox.Request}
    (h : ∀ b, (request b).state = b.step q) (o : Office) (name : String) :
    (o.onMailbox name request).state = o.after [.edit name q] := by
  rw [onMailbox, Roster.state_edit, after, Roster.run_cons, Roster.run_nil, Roster.step]
  simp only [h]

theorem exists_after_receive (o : Office) (name header content : String) :
    ∃ qs, (o.receive name header content).state = o.after qs ∧ ∀ q ∈ qs, o.settings.Allows q := by
  rw [receive]
  cases o.checkMail name header content with
  | error fault => exact ⟨[], rfl, by simp⟩
  | ok x =>
    let m : Mail := .ofHeader x.2 (o.roster.findByEmail x.2.sender) content
    exact ⟨[.edit name (.deliver m)], state_onMailbox (fun b => rfl) o name,
      List.forall_mem_singleton.2 trivial⟩

theorem exists_after_receiveAll (o : Office) (header content : String) (names : List String) :
    ∃ qs, (o.receiveAll header content names).state = o.after qs ∧
      ∀ q ∈ qs, o.settings.Allows q := by
  induction names generalizing o with
  | nil => exact ⟨[], rfl, by simp⟩
  | cons name names ih =>
    obtain ⟨qs, hstate, hqs⟩ := exists_after_receive o name header content
    rw [receiveAll]
    rcases hout : o.receive name header content with ⟨fault | p, o'⟩
    · rw [hout] at hstate
      exact ⟨qs, hstate, hqs⟩
    · rw [hout] at hstate
      obtain rfl : o' = o.after qs := hstate
      obtain ⟨qs', hstate', hqs'⟩ := ih (o.after qs)
      refine ⟨qs ++ qs', ?_, ?_⟩
      · rw [after_append, ← hstate']
      · intro q hq
        rcases List.mem_append.1 hq with hq | hq
        · exact hqs q hq
        · exact hqs' q hq

theorem exists_after_send (o : Office) (name header content : String) :
    ∃ qs, (o.send name header content).state = o.after qs ∧ ∀ q ∈ qs, o.settings.Allows q := by
  rw [send]
  cases o.checkMail name header content with
  | error fault => exact ⟨[], rfl, by simp⟩
  | ok x =>
    let kept : Roster.Request := .edit name (.recordSent (.ofHeader x.2 (some x.1) content))
    have hkept : o.settings.Allows kept := trivial
    rw [Outcome.guarded_ok]
    split_ifs
    · obtain ⟨qs, hstate, hqs⟩ := exists_after_receiveAll (o.after [kept]) header content
        ((o.after [kept]).localNames x.2.recipients)
      refine ⟨kept :: qs, hstate, ?_⟩
      intro q hq
      rcases List.mem_cons.1 hq with rfl | hq
      · exact hkept
      · exact hqs q hq
    · exact ⟨[kept], rfl, List.forall_mem_singleton.2 hkept⟩

/-- **Whatever a request does, it is a sequence of requests on the roster that the settings allow.**
-/
theorem exists_after (o : Office) (q : Request) :
    ∃ qs, (o.perform q).state = o.after qs ∧ ∀ r ∈ qs, o.settings.Allows r := by
  cases q with
  | addAccount name email =>
    rw [perform, addAccount]
    cases h : checkAccount name email with
    | error fault => exact ⟨[], rfl, by simp⟩
    | ok u =>
      exact ⟨[.register ⟨email, name⟩], rfl,
        List.forall_mem_singleton.2 (checkAccount_eq_ok.1 h)⟩
  | createFolder name path =>
    rw [perform, createFolder]
    cases checkFolder name path with
    | error fault => exact ⟨[], rfl, by simp⟩
    | ok u =>
      exact ⟨[.edit name (.create ⟨path⟩)], state_onMailbox (fun b => rfl) o name,
        List.forall_mem_singleton.2 trivial⟩
  | addRule name path definition priority =>
    rw [perform, addRule]
    cases h : o.checkRule name path definition priority with
    | error fault => exact ⟨[], rfl, by simp⟩
    | ok r =>
      obtain ⟨-, -, -, hrange, b, -, -, hread⟩ := checkRule_eq_ok.1 h
      rw [← (Rule.read_eq_ok.1 hread).2.1] at hrange
      exact ⟨[.edit name (.addRule r)], state_onMailbox (fun b => rfl) o name,
        List.forall_mem_singleton.2 hrange⟩
  | receive name header content => exact exists_after_receive o name header content
  | send name header content => exact exists_after_send o name header content

/-! ## Reachable offices -/

theorem Sound.after_one (ho : o.Sound) {q : Roster.Request} (hq : o.settings.Allows q) :
    (o.after [q]).Sound := by
  refine ⟨ho.settings, ho.roster.step q, ?_, ?_⟩
  · intro n b h
    rcases Roster.mailbox?_step_cases q h with ⟨a, rfl, -, -, rfl⟩ | ⟨b₀, hb₀, rfl | ⟨q₀, -, rfl⟩⟩
    · exact hq
    · exact ho.complete hb₀
    · rw [Mailbox.account_step]
      exact ho.complete hb₀
  · intro n b h r hr
    rcases Roster.mailbox?_step_cases q h with ⟨a, rfl, -, -, rfl⟩ | ⟨b₀, hb₀, rfl | ⟨q₀, rfl, rfl⟩⟩
    · exact nomatch hr
    · exact ho.ranged hb₀ r hr
    · rcases Mailbox.mem_rules_step q₀ hr with hr | ⟨rfl, -⟩
      · exact ho.ranged hb₀ r hr
      · exact hq

theorem Sound.after (ho : o.Sound) {qs : List Roster.Request}
    (hqs : ∀ q ∈ qs, o.settings.Allows q) : (o.after qs).Sound := by
  induction qs generalizing o with
  | nil => exact ho
  | cons q qs ih =>
    rw [after_cons]
    apply ih (ho.after_one (hqs q List.mem_cons_self))
    intro q' hq'
    exact hqs q' (List.mem_cons_of_mem q hq')

/-- An office stays sound whatever it is asked for. -/
theorem Sound.perform (ho : o.Sound) (q : Request) : (o.perform q).state.Sound := by
  obtain ⟨qs, hstate, hqs⟩ := exists_after o q
  rw [hstate]
  exact ho.after hqs

theorem openWith_eq_ok {r : Roster} {s : Settings} :
    openWith r s = .ok o ↔ s.check = .ok () ∧ o = ⟨r, s⟩ := by
  rw [openWith]
  cases s.check <;> simp [Except.map, eq_comm]

theorem sound_empty {s : Settings} (hs : s.check = .ok ()) : Sound ⟨.empty, s⟩ where
  settings := hs
  roster := Roster.sound_empty
  complete h := nomatch (Roster.mailbox?_empty _).symm.trans h
  ranged h := nomatch (Roster.mailbox?_empty _).symm.trans h

/-- **What holds of every reachable office.** -/
theorem Reachable.sound (ho : o.Reachable) : o.Sound := by
  induction ho with
  | initial => exact sound_empty rfl
  | opened h =>
    obtain ⟨hs, rfl⟩ := openWith_eq_ok.1 h
    exact sound_empty hs
  | perform q _ ih => exact ih.perform q

theorem Reachable.run (ho : o.Reachable) (qs : List Request) : (o.run qs).Reachable := by
  induction qs generalizing o with
  | nil => exact ho
  | cons q qs ih => exact ih (ho.perform q)

/-- What holds of new mailboxes and is kept by every request to a mailbox holds of every mailbox of
a reachable office. -/
theorem Reachable.forall_mailbox {P : Mailbox → Prop} (hinitial : ∀ a, P (.initial a))
    (hstep : ∀ b q, P b → P (b.step q)) (ho : o.Reachable) {n : String} {b : Mailbox}
    (hb : o.roster.mailbox? n = some b) : P b := by
  induction ho generalizing n b with
  | initial => exact nomatch (Roster.mailbox?_empty _).symm.trans hb
  | opened h =>
    obtain ⟨-, rfl⟩ := openWith_eq_ok.1 h
    exact nomatch (Roster.mailbox?_empty _).symm.trans hb
  | @perform o q _ ih =>
    obtain ⟨qs, hstate, -⟩ := exists_after o q
    rw [hstate] at hb
    exact Roster.forall_mailbox_run hinitial hstep ih qs hb

/-- An office with two accounts. -/
def neighbours : Office :=
  ((initial.perform (.addAccount "a" "a@x.com")).state.perform (.addAccount "b" "b@x.com")).state

theorem reachable_neighbours : neighbours.Reachable := .perform _ (.perform _ .initial)

theorem mailbox?_neighbours :
    neighbours.roster.mailbox? "a" = some (.initial ⟨"a@x.com", "a"⟩) ∧
      neighbours.roster.mailbox? "b" = some (.initial ⟨"b@x.com", "b"⟩) := by
  decide +kernel

end Office

end SortingOffice
