import SortingOffice.Proofs.Mailbox.History
import SortingOffice.Proofs.Samples

/-!
# The mails that wait in the inbox

A mail that arrives goes where the whole rulebook says. A rule that is added takes the mails that
fit it out of the inbox, whatever the other rules say about them. Both keep the inbox free of mails
that would not go there.

* `Mailbox.Tidy`, **`Tidy.run`**: rules have their folders and stand in order, and the rulebook
  sends each mail of the inbox to the inbox.
* **`stays_in_inbox`**: delivering a mail of the inbox again changes nothing.
* `placeFor_of_waiting`, `holds_of_addRule`: where the rulebook sends a mail of the inbox behind a
  new rule, and where the new rule has taken it.
* **`addRule_files_as_deliver`**: they differ for the mails that an older rule keeps in the inbox.
* **`not_forall_addRule_files_as_deliver`**: there are such mails.
-/

namespace SortingOffice

namespace Mailbox

/-- Every rule has its folder, the rules are in the order of their priorities, and a mail in the
inbox is one that the rulebook sends there. -/
structure Tidy (b : Mailbox) : Prop where
  routable : b.Routable
  ordered : b.rulebook.rules.Pairwise fun r s => r.priority ≤ s.priority
  waiting : ∀ {m}, b.folders.Holds .inbox m → b.placeFor m = .inbox

variable {b b' : Mailbox} {r : Rule} {m : Mail}

/-! ## Where the rulebook sends a mail -/

theorem placeFor_eq_inbox_iff :
    b.placeFor m = .inbox ↔ ∀ r, b.rulebook.firstFor m = some r → r.folder = .inbox := by
  rw [placeFor]
  cases b.rulebook.firstFor m <;> simp

theorem placeFor_of_place (hb : b.Tidy) (h : b'.rulebook = b.rulebook.place r) (m : Mail) :
    b'.placeFor m =
      if r.fits m = true ∧ ∀ s ∈ b.rulebook.rules, s.fits m = true → r.priority < s.priority then
        r.folder else b.placeFor m := by
  rw [placeFor, h, Rulebook.firstFor_place hb.ordered]
  split_ifs
  · rfl
  · rw [placeFor]

/-! ## One request -/

/-- The mails of the inbox behind a rule that is added: those that the rule leaves there. -/
theorem holds_inbox_cleared (h : b.folders.contains r.folder = true) :
    (b.folders.cleared r).Holds .inbox m ↔
      b.folders.Holds .inbox m ∧ r.destination m = .inbox := by
  rw [FolderTree.holds_cleared h]
  simp [eq_comm]

theorem waiting_step_addRule (hb : b.Tidy) (r : Rule)
    (hm : (b.step (.addRule r)).folders.Holds .inbox m) :
    (b.step (.addRule r)).placeFor m = .inbox := by
  rw [step] at hm ⊢
  cases hbook : b.rulebookWith r with
  | error fault =>
    rw [addRule_of_error hbook] at hm ⊢
    exact hb.waiting hm
  | ok book =>
    rw [addRule_of_ok hbook] at hm ⊢
    obtain ⟨hm, hdest⟩ := (holds_inbox_cleared (contains_of_rulebookWith hbook)).1 hm
    have hplace := Rulebook.eq_place_of_insert (insert_of_rulebookWith hbook)
    rw [placeFor_of_place hb hplace]
    split_ifs with hr
    · -- the new rule decides, and it has left the mail where it was
      rwa [Rule.destination, if_pos hr.1] at hdest
    · exact hb.waiting hm

theorem waiting_step (hb : b.Tidy) (q : Request) (hm : (b.step q).folders.Holds .inbox m) :
    (b.step q).placeFor m = .inbox := by
  cases q with
  | create p =>
    have hbook : (b.step (.create p)).rulebook = b.rulebook := rfl
    rw [placeFor_congr hbook]
    exact hb.waiting ((holds_step_create b p).1 hm)
  | addRule r => exact waiting_step_addRule hb r hm
  | deliver n =>
    rw [step, deliver_eq hb.routable] at hm ⊢
    show b.placeFor m = .inbox
    rcases FolderTree.holds_putMail.1 hm with hm | ⟨hplace, rfl⟩
    · exact hb.waiting hm
    · exact hplace.symm
  | recordSent n =>
    have hbook : (b.step (.recordSent n)).rulebook = b.rulebook := rfl
    rw [placeFor_congr hbook]
    rcases FolderTree.holds_putMail.1 hm with hm | ⟨hsent, -⟩
    · exact hb.waiting hm
    · exact absurd hsent (by decide)

theorem Tidy.step (hb : b.Tidy) (q : Request) : (b.step q).Tidy where
  routable := hb.routable.step q
  ordered := by
    rcases rulebook_step_cases b q with h | ⟨r, -, -, h⟩
    · rw [h]
      exact hb.ordered
    · rw [h]
      exact Rulebook.pairwise_place hb.ordered r
  waiting := waiting_step hb q

/-! ## All requests -/

/-- **A mailbox stays tidy whatever it is asked for.** -/
theorem Tidy.run (hb : b.Tidy) (qs : List Request) : (b.run qs).Tidy := by
  induction qs generalizing b with
  | nil => exact hb
  | cons q qs ih => exact ih (hb.step q)

theorem tidy_initial (a : Account) : (initial a).Tidy where
  routable := routable_initial a
  ordered := List.Pairwise.nil
  waiting h := absurd h not_holds_initial

/-- **A mail in the inbox stays there.** Behind any requests to a new mailbox, the first rule that
fits a mail of the inbox is a rule for the inbox, if there is one. Delivering the mail again leaves
everything as it is. -/
theorem stays_in_inbox (a : Account) (qs : List Request) (m : Mail)
    (hm : ((initial a).run qs).folders.Holds .inbox m) :
    (∀ r, ((initial a).run qs).rulebook.firstFor m = some r → r.folder = .inbox) ∧
      ((initial a).run qs).deliver m = ⟨.ok .inbox, (initial a).run qs⟩ := by
  have hb : ((initial a).run qs).Tidy := (tidy_initial a).run qs
  refine ⟨placeFor_eq_inbox_iff.1 (hb.waiting hm), ?_⟩
  rw [deliver_eq hb.routable, hb.waiting hm, FolderTree.putMail_of_holds hm]

/-- A mail about an exam arrives behind a rule that keeps such mails in the inbox. -/
def examQueued (priority : Int32) : List Request :=
  [.create school, .addRule (examRule .inbox priority), .deliver exam]

/-- A mail that a rule keeps in the inbox. -/
theorem exam_stays_in_inbox : ((initial owner).run (examQueued 5)).deliver exam =
    ⟨.ok .inbox, (initial owner).run (examQueued 5)⟩ :=
  (stays_in_inbox owner (examQueued 5) exam (by decide +kernel)).2

/-! ## A new rule and the rulebook -/

/-- The new rule takes a mail out of the inbox that an older rule would have left there. -/
def Overrides (b : Mailbox) (r : Rule) (m : Mail) : Prop :=
  r.fits m = true ∧ r.folder ≠ .inbox ∧
    ∃ s ∈ b.rulebook.rules, s.fits m = true ∧ s.priority ≤ r.priority

instance (b : Mailbox) (r : Rule) (m : Mail) : Decidable (b.Overrides r m) :=
  inferInstanceAs (Decidable (_ ∧ _))

/-- Where the rulebook sends a mail of the inbox behind a new rule: where the rule takes it, unless
an older rule would have left it in the inbox. -/
theorem placeFor_of_waiting (hb : b.Tidy) (h : b'.rulebook = b.rulebook.place r)
    (hm : b.folders.Holds .inbox m) :
    b'.placeFor m = if b.Overrides r m then .inbox else r.destination m := by
  rw [placeFor_of_place hb h, hb.waiting hm, Rule.destination]
  by_cases hr : r.fits m = true
  · by_cases hall : ∀ s ∈ b.rulebook.rules, s.fits m = true → r.priority < s.priority
    · have hover : ¬ b.Overrides r m := by
        rintro ⟨-, -, s, hs, hfits, hle⟩
        exact Int32.not_le.2 (hall s hs hfits) hle
      rw [if_pos ⟨hr, hall⟩, if_neg hover, if_pos hr]
    · have hold : ∃ s ∈ b.rulebook.rules, s.fits m = true ∧ s.priority ≤ r.priority := by
        simpa using hall
      rw [if_neg fun h => hall h.2, if_pos hr]
      split_ifs with hover
      · rfl
      · by_contra hfolder
        exact hover ⟨hr, Ne.symm hfolder, hold⟩
  · rw [if_neg fun h => hr h.1, if_neg fun h => hr h.1, if_neg hr]

theorem exists_rulebookWith_of_addRule {k : Nat} (h : (b.addRule r).answer = .ok k) :
    ∃ book, b.rulebookWith r = .ok book := by
  cases hbook : b.rulebookWith r with
  | error fault =>
    rw [addRule_of_error hbook] at h
    cases h
  | ok book => exact ⟨book, rfl⟩

/-- **Where the mails of the inbox are behind a new rule**: where the rule takes them. -/
theorem holds_of_addRule (hb : b.Tidy) {k : Nat} (h : (b.addRule r).answer = .ok k)
    (hm : b.folders.Holds .inbox m) :
    (b.addRule r).state.folders.Holds (r.destination m) m ∧
      ((b.addRule r).state.folders.Holds .inbox m ↔ r.destination m = .inbox) ∧
      ((b.addRule r).state.deliver m).answer =
        .ok (if b.Overrides r m then .inbox else r.destination m) := by
  obtain ⟨book, hbook⟩ := exists_rulebookWith_of_addRule h
  have hfolder := contains_of_rulebookWith hbook
  have htidy : (b.addRule r).state.Tidy := hb.step (.addRule r)
  have hplace : (b.addRule r).state.rulebook = b.rulebook.place r := by
    rw [addRule_of_ok hbook, Rulebook.eq_place_of_insert (insert_of_rulebookWith hbook)]
  refine ⟨?_, ?_, ?_⟩
  · rw [addRule_of_ok hbook, FolderTree.holds_cleared hfolder]
    exact .inr ⟨hm, rfl⟩
  · rw [addRule_of_ok hbook, holds_inbox_cleared hfolder]
    exact and_iff_right hm
  · rw [deliver_eq htidy.routable, placeFor_of_waiting hb hplace hm]

/-- **A new rule files the mails of the inbox as a delivery would, those that it overrides
excepted.** Let a rule be added to a mailbox behind any requests. A mail that was in the inbox is in
the folder for which a delivery would decide now, and in the inbox only if that is the inbox. This
fails for a mail exactly if the rule takes it to another folder although a rule that fits it, with
the same or a lower priority, was there before: a delivery would decide for the inbox then, and the
mail is in the folder of the new rule and not in the inbox. -/
theorem addRule_files_as_deliver (a : Account) (qs : List Request) (r : Rule) (m : Mail)
    (hadd : ∃ k, (((initial a).run qs).addRule r).answer = .ok k)
    (hm : ((initial a).run qs).folders.Holds .inbox m) :
    let b := (initial a).run qs
    let b' := (b.addRule r).state
    ∃ p, (b'.deliver m).answer = .ok p ∧
      if b.Overrides r m then
        p = .inbox ∧ b'.folders.Holds r.folder m ∧ ¬ b'.folders.Holds .inbox m
      else b'.folders.Holds p m ∧ (b'.folders.Holds .inbox m → p = .inbox) := by
  intro b b'
  have hb : b.Tidy := (tidy_initial a).run qs
  obtain ⟨k, hk⟩ := hadd
  obtain ⟨hdest, hinbox, hdeliver⟩ := holds_of_addRule hb hk hm
  refine ⟨_, hdeliver, ?_⟩
  split_ifs with hover
  · have hfolder : r.destination m = r.folder := if_pos hover.1
    rw [hfolder] at hdest hinbox
    exact ⟨rfl, hdest, fun h => hover.2.1 (hinbox.1 h)⟩
  · exact ⟨hdest, hinbox.1⟩

/-- A rule of a lower priority takes the mail where a delivery would put it. -/
theorem addRule_files_exam : (((initial owner).run (examQueued 5)).addRule
    (examRule school 1)).state.folders.Holds school exam := by
  obtain ⟨p, hp, hfiled⟩ := addRule_files_as_deliver owner (examQueued 5) (examRule school 1) exam
    ⟨1, by decide +kernel⟩ (by decide +kernel)
  have hschool : ((((initial owner).run (examQueued 5)).addRule (examRule school 1)).state.deliver
      exam).answer = .ok school := by decide +kernel
  obtain rfl : school = p := Except.ok.inj (hschool.symm.trans hp)
  rw [if_neg (by decide +kernel)] at hfiled
  exact hfiled.1

/-- **Not every mail of the inbox is filed as a delivery would file it.** A rule of a greater
priority takes the mail out of the inbox too. -/
theorem not_forall_addRule_files_as_deliver :
    ¬ ∀ (a : Account) (qs : List Request) (r : Rule) (m : Mail),
      (∃ k, (((initial a).run qs).addRule r).answer = .ok k) →
      ((initial a).run qs).folders.Holds .inbox m →
      ∃ p, ((((initial a).run qs).addRule r).state.deliver m).answer = .ok p ∧
        (((initial a).run qs).addRule r).state.folders.Holds p m ∧
        ((((initial a).run qs).addRule r).state.folders.Holds .inbox m → p = .inbox) := by
  intro hclaim
  obtain ⟨p, hp, hholds, -⟩ := hclaim owner (examQueued 1) (examRule school 5) exam
    ⟨1, by decide +kernel⟩ (by decide +kernel)
  have hinbox : ((((initial owner).run (examQueued 1)).addRule (examRule school 5)).state.deliver
      exam).answer = .ok .inbox := by decide +kernel
  obtain rfl : Path.inbox = p := Except.ok.inj (hinbox.symm.trans hp)
  revert hholds
  decide +kernel

end Mailbox

end SortingOffice
