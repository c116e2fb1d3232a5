import SortingOffice.Proofs.Mailbox.Exchange

/-!
# Rules find their folders

A rule names a folder by its path, whatever that path is, and the folder is looked up when the rule
is added, when the inbox is cleared, and with every mail that the rule takes. Only the first of these
can fail.

* `IsFiled`, **`Housed.isFiled_deliver`**: what a mail that arrives changes.
* **`addRule_eq`**: what a new rule changes, and when it is refused.
* **`routing_run_initial`**: all of this behind any requests to a new mailbox.
-/

namespace SortingOffice

theorem FolderTree.find_putMail_of_ne {t : FolderTree} {p q : Path} (h : q ≠ p) (m : Mail) :
    (t.putMail p m).find q = t.find q := by
  rw [find, getElem?_putMail, if_neg h, find]

namespace Mailbox

variable {b : Mailbox}

/-! ## Mails -/

/-- `b'` is the mailbox `b` with the mail `m` in the folder at `p`. All other folders are the same,
and so are the links between folders and the rules. -/
structure IsFiled (b : Mailbox) (p : Path) (m : Mail) (b' : Mailbox) : Prop where
  account : b'.account = b.account
  rulebook : b'.rulebook = b.rulebook
  links : ∀ q, b'.folders.links q = b.folders.links q
  others : ∀ q, q ≠ p → b'.folders.find q = b.folders.find q
  holds : ∀ n, b'.folders.Holds p n ↔ b.folders.Holds p n ∨ n = m

/-- **A mail that arrives is in its folder, and nothing else is different.** -/
theorem Housed.isFiled_deliver (hb : b.Housed) (m : Mail) :
    b.IsFiled (b.placeFor m) m (b.deliver m).state := by
  rw [deliver_eq hb.routable]
  refine ⟨rfl, rfl, ?_, ?_, ?_⟩
  · intro q
    exact FolderTree.links_putMail (hb.contains_placeFor m) m q
  · intro q hq
    exact FolderTree.find_putMail_of_ne hq m
  · intro n
    rw [FolderTree.holds_putMail, eq_self, true_and]

/-! ## Rules -/

/-- **A rule is refused only for its folder or for a rule that clashes with it**, and then nothing is
different. -/
theorem addRule_eq (b : Mailbox) (r : Rule) : b.addRule r =
    if b.folders.contains r.folder = false then ⟨.error (.folderNotFound r.folder), b⟩
    else if ∃ s ∈ b.rulebook.rules, s.Clashes r then
      ⟨.error (.ruleConflict r.priority r.folder), b⟩
    else ⟨.ok (if r.folder = .inbox then 0 else (b.folders.matching r).size),
      { b with folders := b.folders.cleared r, rulebook := b.rulebook.place r }⟩ := by
  have hbook := b.rulebookWith_eq r
  split_ifs at hbook with hfolder hclash
  · rw [addRule_of_error hbook, if_pos hfolder]
  · rw [addRule_of_error hbook, if_neg hfolder, if_pos hclash]
  · rw [addRule_of_ok hbook, if_neg hfolder, if_neg hclash]

/-! ## All requests -/

/-- **Rules have their folders, and mails get into them.** Behind any requests to a new mailbox,
every rule has its folder. A mail that arrives goes into the folder of the first rule that fits it,
or into the inbox, and nothing else is different. A new rule is refused exactly if its folder is
missing, or a rule with its priority and its conditions is there, and then the mailbox is the same;
else the rule takes its place, and the mails of the inbox that fit it are moved. -/
theorem routing_run_initial (a : Account) (qs : List Request) :
    let b := (initial a).run qs
    (∀ r ∈ b.rulebook.rules, b.folders.contains r.folder = true) ∧
      (∀ m, (b.deliver m).answer = .ok (b.placeFor m) ∧
        b.IsFiled (b.placeFor m) m (b.deliver m).state) ∧
      ∀ r, b.addRule r =
        if b.folders.contains r.folder = false then ⟨.error (.folderNotFound r.folder), b⟩
        else if ∃ s ∈ b.rulebook.rules, s.Clashes r then
          ⟨.error (.ruleConflict r.priority r.folder), b⟩
        else ⟨.ok (if r.folder = .inbox then 0 else (b.folders.matching r).size),
          { b with folders := b.folders.cleared r, rulebook := b.rulebook.place r }⟩ := by
  intro b
  have hb : b.Housed := (housed_initial a).run qs
  refine ⟨hb.routable, ?_, b.addRule_eq⟩
  intro m
  refine ⟨?_, hb.isFiled_deliver m⟩
  rw [deliver_eq hb.routable]

end Mailbox

end SortingOffice
