import SortingOffice.Proofs.Folders.Moving
import SortingOffice.Proofs.Mailbox.Routing
import SortingOffice.Proofs.Office.Atomic
import SortingOffice.Proofs.Office.Invariant
import SortingOffice.Proofs.Office.Needs
import SortingOffice.Proofs.Rule.OwnLine

/-!
# Adding a rule

Whether an account gets a rule is decided in four places: the arguments, the roster, the text of the
definition, and the mailbox. Some things are looked for in two of them.

* `Rule.Duplicates`: a rule that asks for the same already.
* `Mailbox.IsExtended`, `Mailbox.isExtended_addRule`: a mailbox with a rule more.
* `Office.ruleNeeds`: all that is looked for, each thing once and in its order.
* **`follows_addRule`**: a rule is refused for the first thing that is missing.
* **`Reachable.new_rule`**: when a rule is added, and what that does.
-/

namespace SortingOffice

/-! ## Rules that are there -/

namespace Rule

/-- A rule has this priority and, for each criterion, the words that this definition states. -/
def Duplicates (s : Rule) (definition : String) (priority : Int32) : Prop :=
  s.priority = priority ∧
    ∀ c, s.definition.words c = .ofLine (Text.valueAfter c.label definition)

/-- A rule that was read clashes with those that duplicate it. -/
theorem clashes_iff_duplicates {folder : Path} {definition : String} {priority : Int32} {r s : Rule}
    (hr : Rule.read folder definition priority = .ok r) :
    s.Clashes r ↔ s.Duplicates definition priority := by
  obtain ⟨-, rfl, hread⟩ := read_eq_ok.1 hr
  rw [← conflictsWith_iff, conflictsWith_iff_words, Duplicates]
  refine and_congr_right fun _ => forall_congr' fun c => ?_
  rw [(Definition.words_of_read hread c).2, Std.ExtTreeSet.ext_mem_iff]

end Rule

/-! ## A rule more -/

namespace Mailbox

variable {b : Mailbox} {r : Rule}

/-- `b'` is the mailbox `b` with the rule `r`. The rule stands behind all rules of the same or a lower
priority and in front of all others. The mails of the inbox are where the rule takes them, all other
mails are where they were, and the links between folders are the same. -/
structure IsExtended (b : Mailbox) (r : Rule) (b' : Mailbox) : Prop where
  account : b'.account = b.account
  rules : ∃ front back, b.rulebook.rules = front ++ back ∧
    b'.rulebook.rules = front ++ r :: back ∧ (∀ s ∈ front, s.priority ≤ r.priority) ∧
    ∀ s ∈ back, r.priority < s.priority
  holds : ∀ p m, b'.folders.Holds p m ↔ (p ≠ .inbox ∧ b.folders.Holds p m) ∨
    (b.folders.Holds .inbox m ∧ p = r.destination m)
  links : ∀ p, b'.folders.links p = b.folders.links p

theorem isExtended_addRule (hb : b.Tidy) (hinbox : b.folders.contains .inbox = true) {k : Nat}
    (h : (b.addRule r).answer = .ok k) : b.IsExtended r (b.addRule r).state := by
  obtain ⟨book, hbook⟩ := exists_rulebookWith_of_addRule h
  obtain ⟨front, back, hcut, hplace, hfront, hback⟩ := Rulebook.exists_cut hb.ordered r
  rw [addRule_of_ok hbook, Rulebook.eq_place_of_insert (insert_of_rulebookWith hbook)]
  exact {
    account := rfl
    rules := ⟨front, back, hcut, hplace, hfront, hback⟩
    holds := fun _ _ => FolderTree.holds_cleared (contains_of_rulebookWith hbook)
    links := FolderTree.links_cleared hinbox r }

end Mailbox

namespace Office

variable {o : Office} {name path definition : String} {priority : Int32} {b : Mailbox}

/-! ## What is looked for -/

/-- A text that is not blank. -/
def filled (argument : Argument) (value : String) : Need :=
  ⟨Text.isBlankText value = false, .argument (.blank argument)⟩

/-- A label that does not stand in a definition more than once. -/
def unrepeated (definition : String) (c : Criterion) : Need :=
  ⟨c.StandsAtMostOnce definition, .repeatedCriterion c⟩

/-- What the check of a rule looks for: a name, a path and a definition that are not blank, a priority
in the range of the settings, the account, the folder, and no label that stands in the definition
more than once. -/
def checkNeeds (o : Office) (name path definition : String) (priority : Int32) : List Need :=
  filled .accountName name :: filled .folderPath path :: filled .ruleDefinition definition ::
  ⟨o.settings.leastPriority ≤ priority ∧ priority ≤ o.settings.greatestPriority,
    .argument (.priorityOutOfRange priority o.settings.leastPriority
      o.settings.greatestPriority)⟩ ::
  ⟨∃ b, o.roster.mailbox? name = some b, .accountNotFound name⟩ ::
  ⟨∀ b, o.roster.mailbox? name = some b → b.folders.contains ⟨path⟩ = true,
    .folderNotFound ⟨path⟩⟩ ::
  Criterion.all.map (unrepeated definition)

/-- What a rule needs: that its check passes, and that no rule of the account duplicates it. -/
def ruleNeeds (o : Office) (name path definition : String) (priority : Int32) : List Need :=
  o.checkNeeds name path definition priority ++
  [⟨∀ b, o.roster.mailbox? name = some b →
      ∀ s ∈ b.rulebook.rules, ¬ s.Duplicates definition priority,
    .ruleConflict priority ⟨path⟩⟩]

theorem allMet_ruleNeeds : Need.AllMet (o.ruleNeeds name path definition priority) ↔
    Text.isBlankText name = false ∧ Text.isBlankText path = false ∧
    Text.isBlankText definition = false ∧
    (o.settings.leastPriority ≤ priority ∧ priority ≤ o.settings.greatestPriority) ∧
    ∃ b, o.roster.mailbox? name = some b ∧ b.folders.contains ⟨path⟩ = true ∧
      (∀ c : Criterion, c.StandsAtMostOnce definition) ∧
      ∀ s ∈ b.rulebook.rules, ¬ s.Duplicates definition priority := by
  have hlabels : Need.AllMet (Criterion.all.map (unrepeated definition)) ↔
      ∀ c : Criterion, c.StandsAtMostOnce definition := by
    simp [Need.AllMet, Criterion.mem_all, unrepeated]
  simp only [ruleNeeds, checkNeeds, filled, Need.allMet_append, Need.allMet_cons, hlabels]
  constructor
  · rintro ⟨⟨hname, hpath, hdefinition, hrange, ⟨b, hb⟩, hfolder, hlabel⟩, hfree, -⟩
    exact ⟨hname, hpath, hdefinition, hrange, b, hb, hfolder b hb, hlabel, hfree b hb⟩
  · rintro ⟨hname, hpath, hdefinition, hrange, b, hb, hfolder, hlabel, hfree⟩
    -- the needs behind the account are about any mailbox with the name, and there is only one
    have hb' (b' : Mailbox) (h : o.roster.mailbox? name = some b') : b = b' :=
      Option.some.inj (hb.symm.trans h)
    exact ⟨⟨hname, hpath, hdefinition, hrange, ⟨b, hb⟩, fun b' h => hb' b' h ▸ hfolder, hlabel⟩,
      fun b' h => hb' b' h ▸ hfree, List.forall_mem_nil _⟩

/-! ## The order of the checks -/

theorem follows_demand (argument : Argument) (value : String) :
    Follows [filled argument value] (demand argument value) := by
  apply follows_single
  · intro h
    exact ⟨(), demand_eq_ok.2 h⟩
  · intro h
    rw [demand, Argument.check, if_pos (Bool.of_not_eq_false h)]
    rfl

theorem follows_checkPriority (priority least greatest : Int32) :
    Follows [⟨least ≤ priority ∧ priority ≤ greatest,
        .argument (.priorityOutOfRange priority least greatest)⟩]
      ((checkPriority priority least greatest).mapError Fault.argument) := by
  apply follows_single
  · intro h
    exact ⟨(), mapError_eq_ok.2 (checkPriority_eq_ok.2 h)⟩
  · intro h
    rw [not_and_or, Int32.not_le, Int32.not_le] at h
    rw [checkPriority, if_pos h]
    rfl

theorem follows_account (r : Roster) (name : String) :
    Follows [⟨∃ b, r.mailbox? name = some b, .accountNotFound name⟩] (r.find name) := by
  apply follows_single
  · rintro ⟨b, hb⟩
    exact ⟨b, Roster.find_eq_ok.2 hb⟩
  · intro h
    rw [Roster.find, Option.eq_none_iff_forall_ne_some.2 fun b hb => h ⟨b, hb⟩]

/-- The folder is looked for in the mailbox that was found. -/
theorem follows_folder (hb : o.roster.mailbox? name = some b) (p : Path) :
    Follows [⟨∀ b, o.roster.mailbox? name = some b → b.folders.contains p = true,
      .folderNotFound p⟩] (discard (b.folders.find p)) := by
  apply follows_single
  · intro h
    obtain ⟨f, hf⟩ := FolderTree.exists_find_iff.2 (h b hb)
    exact ⟨(), discard_eq_ok.2 ⟨f, hf⟩⟩
  · intro h
    have hfolder : b.folders.contains p = false := by
      rw [← Bool.not_eq_true]
      intro hp
      exact h fun b' hb' => Option.some.inj (hb.symm.trans hb') ▸ hp
    rw [FolderTree.find_of_not_contains hfolder]
    rfl

theorem follows_read (folder : Path) (text : String) (priority : Int32) :
    Follows (Criterion.all.map (unrepeated text)) (Rule.read folder text priority) := by
  have hneeds (c : Criterion) : c.repeatedIn text = false ↔ (unrepeated text c).met :=
    Criterion.repeatedIn_eq_false_iff
  apply Follows.map
  apply follows_find? hneeds
  · intro h
    rw [Definition.read, h]
    exact ⟨_, rfl⟩
  · intro c h
    rw [Definition.read, h]
    rfl

theorem follows_checkRule (o : Office) (name path definition : String) (priority : Int32) :
    Follows (o.checkNeeds name path definition priority)
      (o.checkRule name path definition priority) := by
  refine .cons (follows_demand _ _) fun _ _ => ?_
  refine .cons (follows_demand _ _) fun _ _ => ?_
  refine .cons (follows_demand _ _) fun _ _ => ?_
  refine .cons (follows_checkPriority _ _ _) fun _ _ => ?_
  refine .cons (follows_account _ _) fun b hb => ?_
  refine .cons (follows_folder (Roster.find_eq_ok.1 hb) _) fun _ _ => ?_
  exact follows_read _ _ _

/-- **A rule is refused for the first thing that it needs and that is missing.** -/
theorem follows_addRule (o : Office) (name path definition : String) (priority : Int32) :
    Follows (o.ruleNeeds name path definition priority)
      (o.addRule name path definition priority).answer := by
  apply Follows.guarded (follows_checkRule o name path definition priority)
  intro r hr
  obtain ⟨-, -, -, -, b, hb, hfolder, hread⟩ := checkRule_eq_ok.1 hr
  obtain ⟨hpath, hpriority, -⟩ := Rule.read_eq_ok.1 hread
  have hclash : (∃ s ∈ b.rulebook.rules, s.Clashes r) ↔ ¬ ∀ b, o.roster.mailbox? name = some b →
      ∀ s ∈ b.rulebook.rules, ¬ s.Duplicates definition priority := by
    simp [Rule.clashes_iff_duplicates hread, hb]
  rw [onMailbox, Roster.edit_of_some hb, Mailbox.addRule_eq, hpath, if_neg (by simp [hfolder])]
  apply follows_single
  · intro h
    rw [if_neg fun hc => hclash.1 hc h]
    exact ⟨_, rfl⟩
  · intro h
    rw [if_pos (hclash.2 h), hpriority]

/-! ## Accepted rules -/

/-- The folders of a new mailbox are in each mailbox of a reachable office. -/
theorem Reachable.contains_of_initial (ho : o.Reachable) (hb : o.roster.mailbox? name = some b)
    {p : Path} (hp : FolderTree.initial.contains p = true) : b.folders.contains p = true := by
  suffices h : b.Routable ∧ b.folders.contains p = true from h.2
  apply Reachable.forall_mailbox ?_ ?_ ho hb
  · intro a
    exact ⟨Mailbox.routable_initial a, hp⟩
  · intro b q hb
    exact ⟨hb.1.step q, Mailbox.contains_step hb.1 q hb.2⟩

/-- A rule that is added goes to the mailbox of the account. -/
theorem addRule_of_ok {k : Nat} (h : (o.addRule name path definition priority).answer = .ok k) :
    ∃ b r, o.checkRule name path definition priority = .ok r ∧ o.roster.mailbox? name = some b ∧
      (b.addRule r).answer = .ok k ∧
      (∀ n, (o.addRule name path definition priority).state.roster.mailbox? n =
        if n = name then some (b.addRule r).state else o.roster.mailbox? n) ∧
      (o.addRule name path definition priority).state.settings = o.settings := by
  cases hcheck : o.checkRule name path definition priority with
  | error fault =>
    rw [addRule, hcheck] at h
    cases h
  | ok r =>
    obtain ⟨-, -, -, -, b, hb, -⟩ := checkRule_eq_ok.1 hcheck
    rw [addRule, hcheck, Outcome.guarded_ok, onMailbox, Roster.edit_of_some hb] at h ⊢
    refine ⟨b, r, rfl, hb, h, fun n => ?_, rfl⟩
    rw [Roster.mailbox?_modify]
    by_cases hn : n = name
    · rw [if_pos hn.symm, if_pos hn, hn, hb, Option.map_some]
    · rw [if_neg (Ne.symm hn), if_neg hn]

/-- **When a rule is added, and what that does.** In a reachable office a rule is added exactly if the
name, the path and the definition are not blank, the priority is in the range, the account exists and
has the folder, no label stands more than once in the definition, and no rule of the account
duplicates the new one. The root, the inbox and the folder for sent mail are folders of every account.
If the rule is not added, the answer is the fault of the first of these things that is missing, and
nothing is changed. If it is, the mailbox of the account gets the rule, no other mailbox and no
setting changes, and the answer is the number of mails that are moved. -/
theorem Reachable.new_rule (ho : o.Reachable) (name path definition : String) (priority : Int32) :
    let out := o.addRule name path definition priority
    ((∃ k, out.answer = .ok k) ↔
      Text.isBlankText name = false ∧ Text.isBlankText path = false ∧
      Text.isBlankText definition = false ∧
      (o.settings.leastPriority ≤ priority ∧ priority ≤ o.settings.greatestPriority) ∧
      ∃ b, o.roster.mailbox? name = some b ∧ b.folders.contains ⟨path⟩ = true ∧
        (∀ c : Criterion, c.StandsAtMostOnce definition) ∧
        ∀ s ∈ b.rulebook.rules, ¬ s.Duplicates definition priority) ∧
    (∀ b, o.roster.mailbox? name = some b →
      ∀ p ∈ [Path.root, .inbox, .sent], b.folders.contains p = true) ∧
    (∀ fault, out.answer = .error fault ↔
      Need.FirstMissing (o.ruleNeeds name path definition priority) fault) ∧
    (∀ fault, out.answer = .error fault → out.state = o) ∧
    ∀ k, out.answer = .ok k → ∃ b r b', o.roster.mailbox? name = some b ∧
      r.folder = ⟨path⟩ ∧ r.priority = priority ∧
      (∀ c, r.definition.words c = .ofLine (Text.valueAfter c.label definition)) ∧
      b.IsExtended r b' ∧
      k = (if r.folder = .inbox then 0 else b.folders.inbox.toList.countP r.fits) ∧
      (∀ n, out.state.roster.mailbox? n =
        if n = name then some b' else o.roster.mailbox? n) ∧
      out.state.settings = o.settings := by
  intro out
  have hfollows := follows_addRule o name path definition priority
  refine ⟨?_, ?_, fun fault => hfollows.eq_error_iff, ?_, ?_⟩
  · rw [← allMet_ruleNeeds]
    exact hfollows.exists_eq_ok_iff
  · intro b hb p hp
    refine ho.contains_of_initial hb (FolderTree.contains_initial.2 ?_)
    simpa using hp
  · exact atomic_perform ho.sound (.addRule name path definition priority)
  · intro k hk
    obtain ⟨b, r, hcheck, hb, hanswer, hmailbox, hsettings⟩ := addRule_of_ok hk
    obtain ⟨-, -, -, -, -, -, -, hread⟩ := checkRule_eq_ok.1 hcheck
    obtain ⟨hpath, hpriority, hdefinition⟩ := Rule.read_eq_ok.1 hread
    have htidy : b.Tidy := ho.forall_mailbox Mailbox.tidy_initial (fun _ q hb => hb.step q) hb
    have hinbox : b.folders.contains .inbox = true :=
      ho.contains_of_initial hb FolderTree.wellFormed_initial.inbox
    refine ⟨b, r, (b.addRule r).state, hb, hpath, hpriority,
      fun c => (Definition.words_of_read hdefinition c).2,
      Mailbox.isExtended_addRule htidy hinbox hanswer, ?_, hmailbox, hsettings⟩
    obtain ⟨book, hbook⟩ := Mailbox.exists_rulebookWith_of_addRule hanswer
    rw [Mailbox.addRule_of_ok hbook, FolderTree.size_matching] at hanswer
    exact (Except.ok.inj hanswer).symm

/-- A rule for the root with words of its own gets its place in front of the rule that is there. One
for the inbox that duplicates that rule is refused. -/
theorem new_rule_narrow :
    (∃ b r b', narrow.roster.mailbox? "a" = some b ∧ r.folder = .root ∧ r.priority = 3 ∧
      b.IsExtended r b' ∧
      (narrow.addRule "a" "/" "from: b@x.com" 3).state.roster.mailbox? "a" = some b') ∧
    (narrow.addRule "a" "/inbox" "subject-includes:exam," 5).state = narrow := by
  obtain ⟨b, r, b', hb, hfolder, hpriority, -, hextended, -, hmailbox, -⟩ :=
    (reachable_narrow.new_rule "a" "/" "from: b@x.com" 3).2.2.2.2 0 (by decide +kernel)
  refine ⟨⟨b, r, b', hb, hfolder, hpriority, hextended, ?_⟩, ?_⟩
  · rw [hmailbox, if_pos rfl]
  · exact (reachable_narrow.new_rule "a" "/inbox" "subject-includes:exam," 5).2.2.2.1
      (.ruleConflict 5 .inbox) (by decide +kernel)

end Office

end SortingOffice
