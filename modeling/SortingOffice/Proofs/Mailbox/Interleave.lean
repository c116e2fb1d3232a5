import Mathlib.Data.List.TakeDrop
import SortingOffice.Proofs.Mailbox.Exchange
import SortingOffice.Proofs.Mailbox.Inbox

/-!
# Rules and mails that come in between each other

A mail that finds its rule is filed when it arrives, and a mail that comes before its rule is filed
when the rule is added. If the rules come in the order in which they are asked, and none of them is
for the inbox, both put the mail into the same folder.

* `Mailbox.Interleave`: requests that add some rules and deliver some mails, in given orders.
* `Mailbox.Awaits`, `Awaits.behind`: rules that can be added one after the other, and what is left
  of an interleaving when a part of it is done.
* **`Awaits.finalPlace_eq`**, **`Awaits.holds_run`**: where the mails are behind an interleaving.
* **`Awaits.run_eq_of_perm`**: two interleavings of the same rules and mails.
* **`exists_run_eq_of_interleave`**: the mailbox behind all interleavings that begin in a new
  mailbox with some folders.
-/

namespace SortingOffice

theorem Rulebook.place_of_le {book : Rulebook} {r : Rule}
    (h : ∀ s ∈ book.rules, s.priority ≤ r.priority) :
    (book.place r).rules = book.rules ++ [r] := by
  have hle : ∀ s ∈ book.rules, decide (s.priority ≤ r.priority) = true := fun s hs =>
    decide_eq_true (h s hs)
  rw [place, List.takeWhile_eq_self_iff.2 hle, List.dropWhile_eq_nil_iff.2 hle]

/-- If no rule is for the inbox, a mail of the inbox ends in the folder of the first rule that fits
it. -/
theorem settle_of_away {rs : List Rule} (haway : ∀ r ∈ rs, r.folder ≠ .inbox) (m : Mail) :
    settle rs m = match rs.find? (·.fits m) with
      | none => .inbox
      | some r => r.folder := by
  induction rs with
  | nil => rfl
  | cons r rs ih =>
    obtain ⟨hr, hrs⟩ := List.forall_mem_cons.1 haway
    rw [settle_cons, Rule.destination, List.find?_cons]
    cases r.fits m with
    | true => exact onward_of_ne hr rs m
    | false => exact (if_pos rfl).trans (ih hrs)

namespace Mailbox

/-- Requests that add the given rules in their order and deliver the given mails in theirs. -/
inductive Interleave : List Rule → List Mail → List Request → Prop
  | nil : Interleave [] [] []
  | rule {rs ms qs} (r : Rule) : Interleave rs ms qs → Interleave (r :: rs) ms (.addRule r :: qs)
  | mail {rs ms qs} (m : Mail) : Interleave rs ms qs → Interleave rs (m :: ms) (.deliver m :: qs)

/-- The rules can be added to the mailbox one after the other: they have their folders, and behind
the rules that are there they are in order and none is refused. None of all these rules is for the
inbox. -/
structure Awaits (b : Mailbox) (rs : List Rule) : Prop where
  housed : b.Housed
  folders : ∀ r ∈ rs, b.folders.contains r.folder = true
  away : ∀ r ∈ b.rulebook.rules ++ rs, r.folder ≠ .inbox
  ordered : (b.rulebook.rules ++ rs).Pairwise fun r s => r.priority ≤ s.priority
  apart : (b.rulebook.rules ++ rs).Pairwise fun r s => ¬ r.Clashes s

variable {b b' : Mailbox} {rs : List Rule} {ms : List Mail} {before qs : List Request} {r : Rule}
  {m : Mail} {f : Path}

/-! ## Interleavings -/

/-- All rules in front of all mails. -/
theorem interleave_sequential (rs : List Rule) (ms : List Mail) :
    Interleave rs ms (rs.map .addRule ++ ms.map .deliver) := by
  induction rs with
  | nil =>
    induction ms with
    | nil => exact .nil
    | cons m ms ih => exact .mail m ih
  | cons r rs ih => exact .rule r ih

theorem Interleave.mem_iff (h : Interleave rs ms qs) {q : Request} :
    q ∈ qs ↔ (∃ r ∈ rs, q = .addRule r) ∨ ∃ m ∈ ms, q = .deliver m := by
  induction h with
  | nil => simp
  | rule r _ ih => simp [ih, or_assoc]
  | mail m _ ih => simp [ih, or_left_comm]

theorem Interleave.deliver_mem_iff (h : Interleave rs ms qs) : .deliver m ∈ qs ↔ m ∈ ms := by
  simp [h.mem_iff]

/-! ## One request -/

theorem Awaits.rulebookWith_eq (hb : b.Awaits (r :: rs)) :
    b.rulebookWith r = .ok (b.rulebook.place r) :=
  rulebookWith_of_apart (hb.folders r List.mem_cons_self) fun s hs =>
    (List.pairwise_append.1 hb.apart).2.2 s hs r List.mem_cons_self

theorem Awaits.rules_step (hb : b.Awaits (r :: rs)) :
    (b.step (.addRule r)).rulebook.rules = b.rulebook.rules ++ [r] := by
  rw [step, addRule_of_ok hb.rulebookWith_eq]
  exact Rulebook.place_of_le fun s hs =>
    (List.pairwise_append.1 hb.ordered).2.2 s hs r List.mem_cons_self

/-- A request that leaves the same rules in all, whether they are there or still to come. -/
theorem Awaits.step (hb : b.Awaits rs) {rs' : List Rule} {q : Request} (hsub : rs' ⊆ rs)
    (hrules : (b.step q).rulebook.rules ++ rs' = b.rulebook.rules ++ rs) :
    (b.step q).Awaits rs' := by
  refine ⟨hb.housed.step q, ?_, ?_, ?_, ?_⟩
  · exact fun r hr => contains_step hb.housed.routable q (hb.folders r (hsub hr))
  · rw [hrules]
    exact hb.away
  · rw [hrules]
    exact hb.ordered
  · rw [hrules]
    exact hb.apart

theorem Awaits.step_rule (hb : b.Awaits (r :: rs)) : (b.step (.addRule r)).Awaits rs :=
  hb.step (List.subset_cons_self r rs) (by
    rw [hb.rules_step, List.append_assoc, List.singleton_append])

theorem rulebook_step_deliver (b : Mailbox) (m : Mail) :
    (b.step (.deliver m)).rulebook = b.rulebook := by
  rw [← run_nil (b.step (.deliver m)), ← run_cons, rulebook_run (by simp)]

theorem Awaits.step_mail (hb : b.Awaits rs) (m : Mail) : (b.step (.deliver m)).Awaits rs :=
  hb.step (List.Subset.refl rs) (by rw [rulebook_step_deliver])

/-! ## All requests -/

/-- In the middle of an interleaving, the rest of it is an interleaving of the rules that are not
there yet. -/
theorem Awaits.behind (hb : b.Awaits rs) (h : Interleave rs ms (before ++ qs)) :
    ∃ rs' ms', (b.run before).Awaits rs' ∧ Interleave rs' ms' qs ∧
      (b.run before).rulebook.rules ++ rs' = b.rulebook.rules ++ rs := by
  induction before generalizing b rs ms with
  | nil => exact ⟨rs, ms, hb, h, rfl⟩
  | cons q before ih =>
    cases h with
    | rule r h =>
      obtain ⟨rs', ms', hb', h', hrules⟩ := ih hb.step_rule h
      rw [hb.rules_step, List.append_assoc] at hrules
      exact ⟨rs', ms', hb', h', hrules⟩
    | mail m h =>
      obtain ⟨rs', ms', hb', h', hrules⟩ := ih (hb.step_mail m) h
      rw [rulebook_step_deliver] at hrules
      exact ⟨rs', ms', hb', h', hrules⟩

theorem Awaits.rules_run (hb : b.Awaits rs) (h : Interleave rs ms qs) :
    (b.run qs).rulebook.rules = b.rulebook.rules ++ rs := by
  rw [← List.append_nil qs] at h
  obtain ⟨rs', ms', -, h', hrules⟩ := hb.behind h
  cases h'
  rw [List.append_nil] at hrules
  exact hrules

theorem Awaits.added_eq (hb : b.Awaits rs) (h : Interleave rs ms qs) : b.added qs = rs := by
  induction h generalizing b with
  | nil => rfl
  | rule r _ ih =>
    rw [added, addRule_of_ok hb.rulebookWith_eq]
    exact congrArg (r :: ·) (ih hb.step_rule)
  | mail m _ ih => exact ih (hb.step_mail m)

theorem Awaits.links_run (hb : b.Awaits rs) (h : Interleave rs ms qs) (p : Path) :
    (b.run qs).folders.links p = b.folders.links p :=
  hb.housed.links_run (fun q hq p hp => by simp [hp, h.mem_iff] at hq) p

/-- **A mail ends where the rules send it that are there in the end.** A rule that sends it
elsewhere than to the inbox when it arrives is in front of the rules that are added later. If there
is none, the first of those that fits it takes it out of the inbox. -/
theorem Awaits.finalPlace_eq (hb : b.Awaits rs) (h : Interleave rs ms qs)
    (hb' : b'.rulebook.rules = b.rulebook.rules ++ rs) (m : Mail) :
    b.finalPlace m qs = b'.placeFor m := by
  rw [Mailbox.finalPlace_eq, (hb.step_mail m).added_eq h, placeFor, placeFor, Rulebook.firstFor,
    Rulebook.firstFor, hb', List.find?_append]
  cases hfirst : b.rulebook.rules.find? (·.fits m) with
  | none =>
    have hsettle := settle_of_away (fun r hr => hb.away r (List.mem_append_right _ hr)) m
    exact (if_pos rfl).trans hsettle
  | some s =>
    have hs : s ∈ b.rulebook.rules := List.mem_of_find?_eq_some hfirst
    exact onward_of_ne (hb.away s (List.mem_append_left rs hs)) rs m

/-- **Where the mails are behind an interleaving.** -/
theorem Awaits.holds_run (hb : b.Awaits rs) (h : Interleave rs ms qs) :
    (b.run qs).folders.Holds f m ↔
      (∃ g, b.folders.Holds g m ∧ f = onward rs m g) ∨ (m ∈ ms ∧ f = (b.run qs).placeFor m) := by
  have hplace {before after : List Request} (hqs : qs = before ++ .deliver m :: after) :
      (b.run before).finalPlace m after = (b.run qs).placeFor m := by
    rw [hqs] at h
    obtain ⟨rs', ms', hb', h', hrules⟩ := hb.behind h
    cases h' with
    | mail _ h' => exact hb'.finalPlace_eq h' (by rw [hqs, hb.rules_run h, hrules]) m
  rw [Mailbox.holds_run hb.housed.routable, hb.added_eq h]
  refine or_congr_right ?_
  constructor
  · rintro (⟨hqs, -⟩ | ⟨before, after, hqs, rfl⟩)
    · simp [h.mem_iff] at hqs
    · refine ⟨h.deliver_mem_iff.1 ?_, hplace hqs⟩
      rw [hqs]
      exact List.mem_append_right before List.mem_cons_self
  · rintro ⟨hm, rfl⟩
    obtain ⟨before, after, hqs⟩ := List.append_of_mem (h.deliver_mem_iff.2 hm)
    exact .inr ⟨before, after, hqs, (hplace hqs).symm⟩

/-- None of the requests fails. -/
theorem Awaits.answers (hb : b.Awaits rs) (h : Interleave rs ms qs) :
    (∀ before r after, qs = before ++ .addRule r :: after →
      ∃ k, ((b.run before).addRule r).answer = .ok k) ∧
    ∀ before m after, qs = before ++ .deliver m :: after →
      ∃ p, ((b.run before).deliver m).answer = .ok p := by
  refine ⟨?_, ?_⟩
  · rintro before r after rfl
    obtain ⟨rs', ms', hb', h', -⟩ := hb.behind h
    cases h' with
    | rule _ _ => exact ⟨_, by rw [addRule_of_ok hb'.rulebookWith_eq]⟩
  · rintro before m after rfl
    exact ⟨_, by rw [deliver_eq (hb.housed.run before).routable]⟩

/-! ## The mailbox behind it -/

/-- A mailbox is its account, its rules, the links of its folders and what these hold. -/
theorem ext_links (haccount : b.account = b'.account)
    (hrules : b.rulebook.rules = b'.rulebook.rules)
    (hlinks : ∀ p, b.folders.links p = b'.folders.links p)
    (hholds : ∀ p m, b.folders.Holds p m ↔ b'.folders.Holds p m) : b = b' := by
  obtain ⟨a, t, ⟨rs⟩⟩ := b
  obtain ⟨a', t', ⟨rs'⟩⟩ := b'
  obtain rfl : t = t' := FolderTree.ext_links hlinks hholds
  obtain rfl : a = a' := haccount
  obtain rfl : rs = rs' := hrules
  rfl

/-- **The order of the mails does not matter, nor when each of them comes.** -/
theorem Awaits.run_eq_of_perm (hb : b.Awaits rs) {ms' : List Mail} {qs' : List Request}
    (h : Interleave rs ms qs) (h' : Interleave rs ms' qs') (hperm : ms'.Perm ms) :
    b.run qs' = b.run qs := by
  have hrules : (b.run qs').rulebook.rules = (b.run qs).rulebook.rules := by
    rw [hb.rules_run h, hb.rules_run h']
  refine ext_links ((account_run b _).trans (account_run b _).symm) hrules ?_ ?_
  · intro p
    rw [hb.links_run h, hb.links_run h']
  · intro f m
    rw [hb.holds_run h, hb.holds_run h', hperm.mem_iff,
      placeFor_congr (congrArg Rulebook.mk hrules)]

/-! ## A new mailbox -/

theorem placeFor_eq_iff_of_ne (hf : f ≠ .inbox) :
    b.placeFor m = f ↔ ∃ r, b.rulebook.firstFor m = some r ∧ r.folder = f := by
  rw [placeFor]
  cases b.rulebook.firstFor m <;> simp [Ne.symm hf]

theorem rules_run_create (a : Account) (ps : List Path) :
    ((initial a).run (ps.map .create)).rulebook.rules = [] := by
  rw [rulebook_run (by simp)]
  rfl

theorem holds_run_create (b : Mailbox) (ps : List Path) :
    (b.run (ps.map .create)).folders.Holds f m ↔ b.folders.Holds f m := by
  induction ps generalizing b with
  | nil => rfl
  | cons p ps ih => rw [List.map_cons, run_cons, ih, holds_step_create]

theorem awaits_run_create (a : Account) {ps : List Path}
    (hordered : rs.Pairwise fun r s => r.priority ≤ s.priority)
    (hapart : rs.Pairwise fun r s => r.conflictsWith s = false)
    (hfolders : ∀ r ∈ rs, r.folder ≠ .inbox ∧
      ((initial a).run (ps.map .create)).folders.contains r.folder = true) :
    ((initial a).run (ps.map .create)).Awaits rs := by
  have hnone := rules_run_create a ps
  refine ⟨(housed_initial a).run _, fun r hr => (hfolders r hr).2, ?_, ?_, ?_⟩
  · rw [hnone]
    exact fun r hr => (hfolders r hr).1
  · rw [hnone]
    exact hordered
  · rw [hnone]
    exact hapart.imp fun h hclash => by simp [Rule.conflictsWith_iff.2 hclash] at h

/-- **Rules that are added in their order make no difference between early and late mails.** Let
there be folders in a new mailbox, and rules for folders that exist, none of them for the inbox, in
the order of their priorities and without conflicts. However these rules and some mails come in
between each other, the rules in their order and the mails in any order, nothing fails and the same
mailbox is behind it all. It has these rules. A folder other than the inbox holds exactly the mails
whose first fitting rule is for it, and the inbox holds exactly those that no rule fits. -/
theorem exists_run_eq_of_interleave (a : Account) (ps : List Path) (rs : List Rule)
    (ms : List Mail) (hordered : rs.Pairwise fun r s => r.priority ≤ s.priority)
    (hapart : rs.Pairwise fun r s => r.conflictsWith s = false)
    (hfolders : ∀ r ∈ rs, r.folder ≠ .inbox ∧
      ((initial a).run (ps.map .create)).folders.contains r.folder = true) :
    let b := (initial a).run (ps.map .create)
    ∃ b' : Mailbox, b'.rulebook.rules = rs ∧
      (∀ f, f ≠ .inbox → ∀ m, b'.folders.Holds f m ↔
        m ∈ ms ∧ ∃ r, rs.find? (·.fits m) = some r ∧ r.folder = f) ∧
      (∀ m, b'.folders.Holds .inbox m ↔ m ∈ ms ∧ ∀ r ∈ rs, r.fits m = false) ∧
      ∀ ms' qs, ms'.Perm ms → Interleave rs ms' qs → b.run qs = b' ∧
        (∀ before r after, qs = before ++ .addRule r :: after →
          ∃ k, ((b.run before).addRule r).answer = .ok k) ∧
        ∀ before m after, qs = before ++ .deliver m :: after →
          ∃ p, ((b.run before).deliver m).answer = .ok p := by
  intro b
  have hb : b.Awaits rs := awaits_run_create a hordered hapart hfolders
  let b' : Mailbox := b.run (rs.map .addRule ++ ms.map .deliver)
  have h := interleave_sequential rs ms
  have hrules : b'.rulebook.rules = rs := by
    rw [hb.rules_run h, rules_run_create, List.nil_append]
  have hholds (f : Path) (m : Mail) : b'.folders.Holds f m ↔ m ∈ ms ∧ b'.placeFor m = f := by
    rw [hb.holds_run h, or_iff_right, eq_comm (a := f)]
    rintro ⟨g, hg, -⟩
    exact not_holds_initial ((holds_run_create _ ps).1 hg)
  refine ⟨b', hrules, ?_, ?_, fun ms' qs hperm h' => ⟨hb.run_eq_of_perm h h' hperm, hb.answers h'⟩⟩
  · intro f hf m
    rw [hholds, placeFor_eq_iff_of_ne hf, Rulebook.firstFor, hrules]
  · intro m
    rw [hholds, placeFor_eq_inbox_iff, Rulebook.firstFor, hrules]
    refine and_congr_right fun _ => ?_
    cases hfind : rs.find? (·.fits m) with
    | none => simpa using hfind
    | some r =>
      have hr : r ∈ rs := List.mem_of_find?_eq_some hfind
      have hfits : r.fits m = true := by simpa using List.find?_some hfind
      refine iff_of_false ?_ ?_
      · exact fun hall => (hfolders r hr).1 (hall r rfl)
      · exact fun hall => by simp [hall r hr] at hfits

/-- A mail about an exam that comes before the rule for such mails ends where it would have ended
behind it. -/
theorem run_exam_early_eq_late :
    (initial owner).run [.create school, .deliver exam, .addRule (examRule school 5)] =
      (initial owner).run [.create school, .addRule (examRule school 5), .deliver exam] := by
  obtain ⟨b', -, -, -, hall⟩ := exists_run_eq_of_interleave owner [school] [examRule school 5]
    [exam] (List.pairwise_singleton _ _) (List.pairwise_singleton _ _) (by decide +kernel)
  have hearly := (hall [exam] _ (List.Perm.refl _) (.mail exam (.rule _ .nil))).1
  have hlate := (hall [exam] _ (List.Perm.refl _) (.rule _ (.mail exam .nil))).1
  exact hearly.trans hlate.symm

end Mailbox

end SortingOffice
