import SortingOffice.Proofs.Folders.Links

/-!
# Mails leave the inbox

When the inbox is cleared by a rule, it is emptied before the rule's folder is looked up again, and
what did not fit is put back. No mail is lost on the way, and none is there twice.

* `holds_inbox_cleared`, `holds_target_cleared`, `find_cleared_of_ne`: each folder behind that.
* `size_inbox_cleared`, **`size_target_cleared`**: the numbers of mails add up.
* `matching_cleared`, **`cleared_cleared`**: a second time there is nothing to move.
* `IsMoved`: what is different and what is not.
* **`clearInbox_run_initial`**: all of this behind any requests to a new tree.
-/

namespace SortingOffice

namespace FolderTree

variable {t : FolderTree} {p q : Path} {m : Mail} {ms : Mails} {r : Rule}

/-! ## The folders -/

/-- What stays in the inbox. -/
theorem holds_inbox_cleared (h : t.contains r.folder = true) (hr : r.folder ≠ .inbox) :
    (t.cleared r).Holds .inbox m ↔ t.Holds .inbox m ∧ r.fits m = false := by
  rw [holds_cleared h, Rule.destination]
  by_cases hm : r.fits m = true
  · simp [hm, Ne.symm hr]
  · simp [hm]

/-- What is in the rule's folder. -/
theorem holds_target_cleared (h : t.contains r.folder = true) (hr : r.folder ≠ .inbox) :
    (t.cleared r).Holds r.folder m ↔
      t.Holds r.folder m ∨ (t.Holds .inbox m ∧ r.fits m = true) := by
  rw [holds_cleared h, Rule.destination]
  by_cases hm : r.fits m = true
  · simp [hm, hr]
  · simp [hm, hr]

/-- All other folders are the same. -/
theorem find_cleared_of_ne (hp : p ≠ .inbox) (hr : p ≠ r.folder) :
    (t.cleared r).find p = t.find p := by
  have hlookup : (t.cleared r).folders[p]? = t.folders[p]? := by
    rw [cleared]
    split_ifs
    · rfl
    · rw [getElem?_putMails, if_neg hr, getElem?_withoutMatching, if_neg hp]
  rw [find, hlookup, find]

/-! ## Their sizes -/

theorem exists_mails (h : t.contains p = true) : ∃ ms, t.mails p = .ok ms := by
  obtain ⟨f, hf⟩ := exists_find_iff.2 h
  exact ⟨f.mails, by rw [mails, hf]; rfl⟩

theorem mem_iff_holds (h : t.mails p = .ok ms) : m ∈ ms ↔ t.Holds p m := by
  constructor
  · intro hm
    exact ⟨ms, h, hm⟩
  · rintro ⟨ms', h', hm⟩
    rw [h] at h'
    rwa [Except.ok.inj h']

/-- The number of mails that fit. -/
theorem size_matching (t : FolderTree) (r : Rule) :
    (t.matching r).size = t.inbox.toList.countP r.fits := by
  rw [← Std.ExtTreeSet.length_toList, matching, Std.ExtTreeSet.toList_filter,
    List.countP_eq_length_filter]

/-- The mails that leave the inbox are those that fit. -/
theorem size_inbox_cleared (h : t.contains r.folder = true) (hr : r.folder ≠ .inbox) :
    (t.cleared r).inbox.size + t.inbox.toList.countP r.fits = t.inbox.size := by
  have hstay : (t.cleared r).inbox = t.inbox.filter (!r.fits ·) := by
    apply Std.ExtTreeSet.ext_mem
    intro m
    rw [mem_inbox, holds_inbox_cleared h hr, Std.ExtTreeSet.mem_filter]
    simp [Std.ExtTreeSet.get_eq, mem_inbox]
  rw [← Std.ExtTreeSet.length_toList, hstay, Std.ExtTreeSet.toList_filter,
    ← List.countP_eq_length_filter, ← Std.ExtTreeSet.length_toList,
    List.length_eq_countP_add_countP r.fits, Nat.add_comm]
  simp

theorem mails_target_cleared (h : t.contains r.folder = true) (hr : r.folder ≠ .inbox)
    (hms : t.mails r.folder = .ok ms) :
    (t.cleared r).mails r.folder = .ok (ms ∪ t.matching r) := by
  obtain ⟨ms', hms'⟩ := exists_mails (contains_cleared (r := r) h)
  have hunion : ms' = ms ∪ t.matching r := by
    apply Std.ExtTreeSet.ext_mem
    intro m
    rw [mem_iff_holds hms', holds_target_cleared h hr, Std.ExtTreeSet.mem_union_iff,
      mem_iff_holds hms, mem_matching]
  rw [hms', hunion]

/-- **The rule's folder gets the mails that fit, and those that it has already count once.** -/
theorem size_target_cleared (h : t.contains r.folder = true) (hr : r.folder ≠ .inbox) :
    ∃ ms ms', t.mails r.folder = .ok ms ∧ (t.cleared r).mails r.folder = .ok ms' ∧
      ms'.size + (ms ∩ t.matching r).size = ms.size + t.inbox.toList.countP r.fits := by
  obtain ⟨ms, hms⟩ := exists_mails h
  refine ⟨ms, ms ∪ t.matching r, hms, mails_target_cleared h hr hms, ?_⟩
  rw [← size_matching]
  exact Std.ExtTreeSet.size_add_size_eq_size_union_add_size_inter.symm

/-! ## The same request again -/

theorem matching_cleared (h : t.contains r.folder = true) (hr : r.folder ≠ .inbox) :
    (t.cleared r).matching r = ∅ := by
  rw [Std.ExtTreeSet.eq_empty_iff_forall_not_mem]
  intro m hm
  obtain ⟨hinbox, hfits⟩ := mem_matching.1 hm
  rw [((holds_inbox_cleared h hr).1 hinbox).2] at hfits
  cases hfits

/-- **A second time there is nothing to move.** -/
theorem cleared_cleared (hinbox : t.contains .inbox = true) (h : t.contains r.folder = true) :
    (t.cleared r).cleared r = t.cleared r := by
  apply ext_links
  · exact links_cleared (contains_cleared hinbox) r
  · intro p m
    have hback (hm : (t.cleared r).Holds .inbox m) : r.destination m = .inbox := by
      rw [holds_cleared h] at hm
      rcases hm with ⟨hne, -⟩ | ⟨-, hdestination⟩
      · exact absurd rfl hne
      · exact hdestination.symm
    rw [holds_cleared (contains_cleared h)]
    constructor
    · rintro (⟨-, hm⟩ | ⟨hm, rfl⟩)
      · exact hm
      · rwa [hback hm]
    · intro hm
      by_cases hp : p = .inbox
      · rw [hp] at hm ⊢
        exact .inr ⟨hm, (hback hm).symm⟩
      · exact .inl ⟨hp, hm⟩

theorem clearInbox_cleared (hinbox : t.contains .inbox = true) (h : t.contains r.folder = true) :
    (t.cleared r).clearInbox r = ⟨.ok 0, t.cleared r⟩ := by
  rw [clearInbox_eq_ok (contains_cleared h), cleared_cleared hinbox h]
  split_ifs with hr
  · rfl
  · rw [matching_cleared h hr, Std.ExtTreeSet.size_empty]

/-! ## Behind any requests -/

/-- `t'` is the tree `t` with those mails of the inbox that fit `r` in the folder of `r` instead. -/
structure IsMoved (t : FolderTree) (r : Rule) (t' : FolderTree) : Prop where
  inbox : ∀ m, t'.Holds .inbox m ↔ t.Holds .inbox m ∧ r.fits m = false
  target : ∀ m, t'.Holds r.folder m ↔ t.Holds r.folder m ∨ (t.Holds .inbox m ∧ r.fits m = true)
  others : ∀ p, p ≠ .inbox → p ≠ r.folder → t'.find p = t.find p
  links : ∀ p, t'.links p = t.links p

/-- **Mails that leave the inbox arrive.** Let the inbox be cleared by a rule behind any requests to
a new tree. If the rule's folder does not exist, that is the answer, and nothing is different; and
nothing is different if the folder is the inbox. Else the answer is the number of mails in the inbox
that fit. These are not in the inbox any more and are in the rule's folder, the others are where they
were, and no other folder and no link between folders is different. The inbox has as many mails less,
and the rule's folder has as many more, except for those that it had already. A second request of
that kind finds nothing to move. -/
theorem clearInbox_run_initial (qs : List Request) (r : Rule) :
    let t := initial.run qs
    let out := t.clearInbox r
    let k := t.inbox.toList.countP r.fits
    (t.contains r.folder = false → out = ⟨.error (.folderNotFound r.folder), t⟩) ∧
    (r.folder = .inbox → out = ⟨.ok 0, t⟩) ∧
    (t.contains r.folder = true → r.folder ≠ .inbox →
      out.answer = .ok k ∧ t.IsMoved r out.state ∧ out.state.inbox.size + k = t.inbox.size ∧
      ∃ ms ms', t.mails r.folder = .ok ms ∧ out.state.mails r.folder = .ok ms' ∧
        ms'.size + (ms ∩ t.matching r).size = ms.size + k) ∧
    (t.contains r.folder = true → out.state.clearInbox r = ⟨.ok 0, out.state⟩) := by
  intro t out k
  have hinbox : t.contains .inbox = true := (wellFormed_initial.run qs).inbox
  refine ⟨?_, ?_, ?_, ?_⟩
  · intro h
    show t.clearInbox r = _
    rw [clearInbox, find_of_not_contains h, Outcome.guarded_error]
  · intro hr
    show t.clearInbox r = _
    rw [clearInbox_eq_ok (hr ▸ hinbox), if_pos hr, cleared, if_pos hr]
  · intro h hr
    have hout : out = ⟨.ok k, t.cleared r⟩ := by
      show t.clearInbox r = _
      rw [clearInbox_eq_ok h, if_neg hr, size_matching]
    rw [hout]
    refine ⟨rfl, ?_, size_inbox_cleared h hr, size_target_cleared h hr⟩
    exact ⟨fun m => holds_inbox_cleared h hr, fun m => holds_target_cleared h hr,
      fun p => find_cleared_of_ne, links_cleared hinbox r⟩
  · intro h
    have hstate : out.state = t.cleared r := by
      show (t.clearInbox r).state = _
      rw [clearInbox_eq_ok h]
    rw [hstate, clearInbox_cleared hinbox h]

end FolderTree

end SortingOffice
