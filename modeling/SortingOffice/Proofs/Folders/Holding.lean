import Mathlib.Tactic.SplitIfs
import SortingOffice.FolderTree

/-!
# What folders hold

The mails of a tree as a relation between paths and mails, and what each operation does to it.

* `FolderTree.Holds`: a mail is in the folder at a path.
* `holds_link`, `holds_putMail`, `holds_withoutMatching`, `holds_putMails`: the parts of the
  operations, with `contains_link` and its like for the folders that exist.
* **`clearInbox_eq_ok`**: clearing the inbox into a folder that exists never fails, although the
  folder is looked up again after the mails have left the inbox.
* **`holds_cleared`**: where the mails are after that, with `Rule.destination`.
-/

namespace SortingOffice

/-- Where a mail of the inbox is after the inbox has been cleared by a rule. -/
def Rule.destination (r : Rule) (m : Mail) : Path := if r.fits m then r.folder else .inbox

theorem Folder.addMail_of_mem {f : Folder} {m : Mail} (h : m ∈ f.mails) : f.addMail m = f := by
  have hinsert : f.mails.insert m = f.mails := by
    apply Std.ExtTreeSet.ext_mem
    intro n
    rw [Std.ExtTreeSet.mem_insert, Std.LawfulEqCmp.compare_eq_iff_eq]
    exact or_iff_right_of_imp fun hn => hn ▸ h
  rw [addMail, hinsert]

namespace FolderTree

variable {t t' : FolderTree} {p q : Path} {m n : Mail} {r : Rule}

/-- A mail is in the folder at a path. -/
def Holds (t : FolderTree) (p : Path) (m : Mail) : Prop := ∃ ms, t.mails p = .ok ms ∧ m ∈ ms

/-! ## Looking up -/

theorem ext_getElem? (h : ∀ p : Path, t.folders[p]? = t'.folders[p]?) : t = t' := by
  cases t
  cases t'
  rw [FolderTree.mk.injEq]
  exact Std.ExtTreeMap.ext_getElem? fun {p} => h p

theorem contains_eq_isSome (t : FolderTree) (p : Path) :
    t.contains p = t.folders[p]?.isSome := by
  rw [contains, Std.ExtTreeMap.contains_eq_isSome_getElem?]

theorem contains_iff : t.contains p = true ↔ ∃ f, t.folders[p]? = some f := by
  rw [contains_eq_isSome, Option.isSome_iff_exists]

theorem contains_eq_false_iff : t.contains p = false ↔ t.folders[p]? = none := by
  rw [contains_eq_isSome, Option.isSome_eq_false_iff, Option.isNone_iff_eq_none]

theorem find_of_some {f : Folder} (h : t.folders[p]? = some f) : t.find p = .ok f := by
  rw [find, h]

theorem find_of_none (h : t.folders[p]? = none) : t.find p = .error (.folderNotFound p) := by
  rw [find, h]

theorem find_of_not_contains (h : t.contains p = false) :
    t.find p = .error (.folderNotFound p) := find_of_none (contains_eq_false_iff.1 h)

theorem exists_find_iff : (∃ f, t.find p = .ok f) ↔ t.contains p = true := by
  rw [contains_eq_isSome]
  cases h : t.folders[p]? with
  | none => simp [find_of_none h]
  | some f => simp [find_of_some h]

theorem holds_iff : t.Holds p m ↔ ∃ f, t.folders[p]? = some f ∧ m ∈ f.mails := by
  unfold Holds mails
  cases h : t.folders[p]? with
  | none => simp [find_of_none h, Except.map]
  | some f => simp [find_of_some h, Except.map]

instance (t : FolderTree) (p : Path) (m : Mail) : Decidable (t.Holds p m) :=
  decidable_of_iff (∃ f ∈ t.folders[p]?, m ∈ f.mails) holds_iff.symm

theorem mem_inbox : m ∈ t.inbox ↔ t.Holds .inbox m := by
  rw [holds_iff, inbox]
  cases t.folders[Path.inbox]? with
  | none => simp
  | some f => simp

theorem mem_matching : m ∈ t.matching r ↔ t.Holds .inbox m ∧ r.fits m = true := by
  rw [matching, Std.ExtTreeSet.mem_filter]
  simp [Std.ExtTreeSet.get_eq, mem_inbox]

/-! ## New folders -/

theorem getElem?_link (t : FolderTree) (p parent q : Path) :
    (t.link p parent).folders[q]? = if q = p then some (.under (some parent))
      else if q = parent then t.folders[q]?.map (·.addChild p) else t.folders[q]? := by
  rw [link, Std.ExtTreeMap.getElem?_insert, Std.ExtTreeMap.getElem?_modify]
  simp only [Std.LawfulEqCmp.compare_eq_iff_eq, eq_comm (a := p), eq_comm (a := parent)]
  by_cases hq : q = parent
  · rw [hq]
  · simp only [if_neg hq]

theorem contains_link (t : FolderTree) (p parent q : Path) :
    (t.link p parent).contains q = (decide (q = p) || t.contains q) := by
  rw [contains_eq_isSome, contains_eq_isSome, getElem?_link]
  by_cases hp : q = p
  · simp [hp]
  · rw [if_neg hp, decide_eq_false hp, Bool.false_or]
    by_cases hparent : q = parent
    · rw [if_pos hparent, Option.isSome_map]
    · rw [if_neg hparent]

/-- A new folder holds nothing, and the others hold what they held. -/
theorem holds_link {parent : Path} (hp : t.contains p = false) :
    (t.link p parent).Holds q m ↔ t.Holds q m := by
  rw [holds_iff, holds_iff, getElem?_link]
  by_cases hqp : q = p
  · rw [contains_eq_false_iff] at hp
    simp [hqp, hp, Folder.under]
  · by_cases hparent : q = parent
    · rw [if_neg hqp, if_pos hparent]
      simp only [Option.map_eq_some_iff, Folder.addChild]
      constructor
      · rintro ⟨_, ⟨f, hf, rfl⟩, hm⟩
        exact ⟨f, hf, hm⟩
      · rintro ⟨f, hf, hm⟩
        exact ⟨_, ⟨f, hf, rfl⟩, hm⟩
    · rw [if_neg hqp, if_neg hparent]

theorem parent_link (t : FolderTree) (p parent q : Path) :
    (t.link p parent).parent q = if q = p then .ok (some parent) else t.parent q := by
  rw [FolderTree.parent, find, getElem?_link, FolderTree.parent, find]
  split_ifs
  · rfl
  · cases t.folders[q]? <;> rfl
  · rfl

/-- A folder can be created if its path is one for users, its parent exists, and it does not. -/
theorem parentForNew_eq_ok {parent : Path} : t.parentForNew p = .ok parent ↔
    p.isUserPath = true ∧ p.parent? = some parent ∧ t.contains parent = true ∧
      t.contains p = false := by
  rw [parentForNew, Path.checked]
  by_cases huser : p.isUserPath = true
  · simp only [huser, if_true, true_and]
    cases hfilter : p.parent?.filter t.contains with
    | none =>
      simp only [reduceCtorEq, false_iff]
      rintro ⟨hpath, hparent, -⟩
      rw [hpath, Option.filter_some, if_pos hparent] at hfilter
      cases hfilter
    | some q =>
      obtain ⟨hpath, hq⟩ := Option.filter_eq_some_iff.1 hfilter
      rw [hpath, Option.some_inj]
      cases t.contains p with
      | true => simp
      | false =>
        simp only [Bool.false_eq_true, if_false, Except.ok.injEq, and_true]
        constructor
        · rintro rfl
          exact ⟨rfl, hq⟩
        · rintro ⟨hparent, -⟩
          exact hparent
  · simp [huser]

theorem not_contains_of_parentForNew {parent : Path} (h : t.parentForNew p = .ok parent) :
    t.contains p = false := (parentForNew_eq_ok.1 h).2.2.2

/-! ## Filing -/

theorem getElem?_putMail (t : FolderTree) (p : Path) (n : Mail) (q : Path) :
    (t.putMail p n).folders[q]? = if q = p then some ((t.folders[p]?.getD (.under none)).addMail n)
      else t.folders[q]? := by
  rw [putMail, Std.ExtTreeMap.getElem?_alter]
  simp only [Std.LawfulEqCmp.compare_eq_iff_eq, eq_comm (a := p)]

theorem contains_putMail (t : FolderTree) (p : Path) (n : Mail) (q : Path) :
    (t.putMail p n).contains q = (decide (q = p) || t.contains q) := by
  rw [contains_eq_isSome, contains_eq_isSome, getElem?_putMail]
  by_cases hp : q = p <;> simp [hp]

theorem holds_putMail : (t.putMail p n).Holds q m ↔ t.Holds q m ∨ (q = p ∧ m = n) := by
  rw [holds_iff, holds_iff, getElem?_putMail]
  by_cases hp : q = p
  · rw [if_pos hp, hp]
    cases h : t.folders[p]? with
    | none => simp [Folder.addMail, Folder.under, eq_comm (a := n)]
    | some f => simp [Folder.addMail, eq_comm (a := n), or_comm]
  · simp [hp]

/-- A mail that is there already changes nothing. -/
theorem putMail_of_holds (h : t.Holds p m) : t.putMail p m = t := by
  obtain ⟨f, hf, hm⟩ := holds_iff.1 h
  apply ext_getElem?
  intro q
  rw [getElem?_putMail, hf, Option.getD_some, Folder.addMail_of_mem hm]
  split_ifs with hq
  · rw [hq, hf]
  · rfl

/-! ## Clearing the inbox -/

theorem getElem?_withoutMatching (t : FolderTree) (r : Rule) (q : Path) :
    (t.withoutMatching r).folders[q]? = if q = .inbox then
      some ((t.folders[Path.inbox]?.getD (.under none)).keep (!r.fits ·)) else t.folders[q]? := by
  rw [withoutMatching, Std.ExtTreeMap.getElem?_alter]
  simp only [Std.LawfulEqCmp.compare_eq_iff_eq, eq_comm (a := Path.inbox)]

theorem contains_withoutMatching (t : FolderTree) (r : Rule) (q : Path) :
    (t.withoutMatching r).contains q = (decide (q = .inbox) || t.contains q) := by
  rw [contains_eq_isSome, contains_eq_isSome, getElem?_withoutMatching]
  by_cases hq : q = .inbox <;> simp [hq]

theorem holds_withoutMatching :
    (t.withoutMatching r).Holds q m ↔ t.Holds q m ∧ (q = .inbox → r.fits m = false) := by
  rw [holds_iff, holds_iff, getElem?_withoutMatching]
  by_cases hq : q = .inbox
  · rw [if_pos hq, hq]
    cases h : t.folders[Path.inbox]? with
    | none => simp [Folder.keep, Folder.under]
    | some f => simp [Folder.keep, Std.ExtTreeSet.get_eq]
  · simp [hq]

theorem getElem?_putMails (t : FolderTree) (p : Path) (ms : Mails) (q : Path) :
    (t.putMails p ms).folders[q]? =
      if q = p then t.folders[q]?.map (·.addMails ms) else t.folders[q]? := by
  rw [putMails, Std.ExtTreeMap.getElem?_modify]
  simp only [Std.LawfulEqCmp.compare_eq_iff_eq, eq_comm (a := p)]
  split_ifs with hq
  · rw [hq]
  · rfl

theorem contains_putMails (t : FolderTree) (p : Path) (ms : Mails) (q : Path) :
    (t.putMails p ms).contains q = t.contains q := Std.ExtTreeMap.contains_modify

theorem holds_putMails {ms : Mails} (hp : t.contains p = true) :
    (t.putMails p ms).Holds q m ↔ t.Holds q m ∨ (q = p ∧ m ∈ ms) := by
  rw [holds_iff, holds_iff, getElem?_putMails]
  by_cases hq : q = p
  · obtain ⟨f, hf⟩ := contains_iff.1 hp
    simp [hq, hf, Folder.addMails]
  · simp [hq]

/-- The tree behind a request to clear the inbox into a folder that exists. -/
def cleared (t : FolderTree) (r : Rule) : FolderTree :=
  if r.folder = .inbox then t else (t.withoutMatching r).putMails r.folder (t.matching r)

theorem contains_withoutMatching_of_contains (h : t.contains q = true) :
    (t.withoutMatching r).contains q = true := by
  rw [contains_withoutMatching, h, Bool.or_true]

/-- **Clearing the inbox into a folder that exists never fails.** -/
theorem clearInbox_eq_ok (h : t.contains r.folder = true) : t.clearInbox r =
    ⟨.ok (if r.folder = .inbox then 0 else (t.matching r).size), t.cleared r⟩ := by
  obtain ⟨f, hf⟩ := exists_find_iff.2 h
  obtain ⟨f', hf'⟩ := exists_find_iff.2 (contains_withoutMatching_of_contains (r := r) h)
  rw [clearInbox, hf, Outcome.guarded_ok, fileAll, hf', Outcome.guarded_ok, cleared]
  split_ifs <;> rfl

theorem contains_cleared (hq : t.contains q = true) : (t.cleared r).contains q = true := by
  rw [cleared]
  split_ifs
  · exact hq
  · rw [contains_putMails, contains_withoutMatching_of_contains hq]

/-- **Where the mails are when the inbox is cleared.** -/
theorem holds_cleared (h : t.contains r.folder = true) : (t.cleared r).Holds q m ↔
    (q ≠ .inbox ∧ t.Holds q m) ∨ (t.Holds .inbox m ∧ q = r.destination m) := by
  have hput := contains_withoutMatching_of_contains (r := r) h
  rw [cleared, Rule.destination]
  split_ifs with hr hm hm
  · rw [hr]
    by_cases hq : q = .inbox <;> simp [hq]
  · by_cases hq : q = .inbox <;> simp [hq]
  · rw [holds_putMails hput, holds_withoutMatching, mem_matching]
    by_cases hq : q = .inbox <;> simp [hq, hm, Ne.symm hr, and_comm]
  · rw [holds_putMails hput, holds_withoutMatching, mem_matching]
    by_cases hq : q = .inbox <;> simp [hq, hm]

end FolderTree

end SortingOffice
