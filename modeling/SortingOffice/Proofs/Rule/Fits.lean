import Mathlib.Data.List.Infix
import SortingOffice.Rule.Basic
import SortingOffice.Proofs.Text.Search

/-!
# What rules ask for

Each of the four conditions of a rule looks at its words in another way.

* `Rule.read_eq_ok`: when a rule is read from a text.
* `infix_append_text_iff`: where a word can stand in a subject with a body behind it.
* `Condition.fits_sender_iff` and the like: which mails meet a condition.
* **`Rule.fits_iff`**, `Rule.conflictsWith_iff_words`: which mails fit a rule, and which rules it
  conflicts with.
-/

namespace SortingOffice

theorem Rule.read_eq_ok {f : Path} {text : String} {priority : Int32} {r : Rule} :
    Rule.read f text priority = .ok r ↔
      r.folder = f ∧ r.priority = priority ∧ Definition.read text = .ok r.definition := by
  rw [Rule.read]
  cases Definition.read text with
  | error fault => simp [Except.map]
  | ok d =>
    cases r
    simp [Except.map, eq_comm]

/-- A word stands in two texts put together if it stands in one of them, or if it starts at the end
of the first and ends at the start of the second. -/
theorem infix_append_text_iff {w s t : String} : w.toList <:+: (s ++ t).toList ↔
    w.toList <:+: s.toList ∨ w.toList <:+: t.toList ∨
      ∃ u v, w = u ++ v ∧ u ≠ "" ∧ v ≠ "" ∧ u.toList <:+ s.toList ∧ v.toList <+: t.toList := by
  rw [String.toList_append, List.infix_append_iff_ne_nil]
  refine or_congr Iff.rfl (or_congr Iff.rfl ?_)
  constructor
  · rintro ⟨us, vs, hus, hvs, hw, hs, ht⟩
    refine ⟨String.ofList us, String.ofList vs, ?_, ?_, ?_, ?_, ?_⟩
    · rw [← String.ofList_append, ← hw, String.ofList_toList]
    · rwa [ne_eq, String.ofList_eq_empty_iff]
    · rwa [ne_eq, String.ofList_eq_empty_iff]
    · rwa [String.toList_ofList]
    · rwa [String.toList_ofList]
  · rintro ⟨u, v, rfl, hu, hv, hs, ht⟩
    exact ⟨u.toList, v.toList, mt String.toList_eq_nil_iff.1 hu, mt String.toList_eq_nil_iff.1 hv,
      String.toList_append, hs, ht⟩

namespace Condition

variable {c : Condition} {ws : Words} {m : Mail}

theorem fits_eq_true_iff : c.fits m = true ↔ c.words = ∅ ∨ c.holds m = true := by
  rw [fits, Bool.or_eq_true, isEmpty, Std.ExtTreeSet.isEmpty_iff]

theorem fits_sender_iff : fits ⟨.sender, ws⟩ m = true ↔
    ws = ∅ ∨ ∃ a, m.sender = some a ∧ ∀ w ∈ ws, a.email = w := by
  rw [fits_eq_true_iff, holds]
  apply or_congr Iff.rfl
  simp only [Mail.senderEmail, Option.any_map, Option.any_eq_true, List.all_eq_true, beq_iff_eq,
    Std.ExtTreeSet.mem_toList, eq_comm (a := Account.email _)]

theorem fits_recipients_iff : fits ⟨.recipients, ws⟩ m = true ↔
    ws = ∅ ∨ ∃ w ∈ ws, w ∈ m.recipients := by
  rw [fits_eq_true_iff, holds]
  simp only [List.any_eq_true, Std.ExtTreeSet.mem_toList, Std.ExtTreeSet.contains_iff_mem]

/-- All words of an empty condition are met, so it needs no case of its own. -/
theorem fits_iff_forall {P : String → Prop}
    (hholds : c.holds m = true ↔ ∀ w ∈ c.words, P w) :
    c.fits m = true ↔ ∀ w ∈ c.words, P w := by
  rw [fits_eq_true_iff, hholds]
  refine or_iff_right_of_imp ?_
  intro hempty w hw
  rw [hempty] at hw
  exact absurd hw Std.ExtTreeSet.not_mem_empty

theorem fits_subject_iff : fits ⟨.subject, ws⟩ m = true ↔
    ∀ w ∈ ws, w.toList <:+: m.subject.toList := by
  apply fits_iff_forall
  rw [holds]
  simp only [List.all_eq_true, Std.ExtTreeSet.mem_toList, Text.contains_iff]

theorem fits_subjectOrBody_iff : fits ⟨.subjectOrBody, ws⟩ m = true ↔
    ∀ w ∈ ws, w.toList <:+: (m.subject ++ m.body).toList := by
  apply fits_iff_forall
  rw [holds]
  simp only [List.all_eq_true, Std.ExtTreeSet.mem_toList, Text.contains_iff]

end Condition

/-- **Which mails fit a rule.** -/
theorem Rule.fits_iff {r : Rule} {m : Mail} : r.fits m = true ↔
    (r.definition.sender = ∅ ∨
      ∃ a, m.sender = some a ∧ ∀ w ∈ r.definition.sender, a.email = w) ∧
    (r.definition.recipients = ∅ ∨ ∃ w ∈ r.definition.recipients, w ∈ m.recipients) ∧
    (∀ w ∈ r.definition.subject, w.toList <:+: m.subject.toList) ∧
    ∀ w ∈ r.definition.subjectOrBody, w.toList <:+: (m.subject ++ m.body).toList := by
  rw [← Condition.fits_sender_iff, ← Condition.fits_recipients_iff, ← Condition.fits_subject_iff,
    ← Condition.fits_subjectOrBody_iff, fits]
  simp only [Definition.conditions, Criterion.all, Definition.condition, Definition.words,
    List.map_cons, List.map_nil, List.all_cons, List.all_nil, Bool.and_true, Bool.and_eq_true]

theorem Definition.eq_iff_words {d e : Definition} :
    d = e ↔ ∀ c w, w ∈ d.words c ↔ w ∈ e.words c := by
  constructor
  · rintro rfl c w
    rfl
  · intro h
    have hwords (c : Criterion) : d.words c = e.words c := Std.ExtTreeSet.ext_mem fun w => h c w
    cases d
    cases e
    rw [Definition.mk.injEq]
    exact ⟨hwords .sender, hwords .recipients, hwords .subject, hwords .subjectOrBody⟩

/-- **Rules conflict if they have the same priority and the same words.** -/
theorem Rule.conflictsWith_iff_words {r s : Rule} : r.conflictsWith s = true ↔
    r.priority = s.priority ∧ ∀ c w, w ∈ r.definition.words c ↔ w ∈ s.definition.words c := by
  rw [conflictsWith, Bool.and_eq_true, beq_iff_eq, beq_iff_eq, Definition.eq_iff_words]

end SortingOffice
