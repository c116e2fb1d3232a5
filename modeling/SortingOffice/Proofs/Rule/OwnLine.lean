import SortingOffice.Proofs.Rule.Draft
import SortingOffice.Proofs.Text.Places

/-!
# The line behind a label

A condition should ask for what stands behind its label on the same line. It does so unless there
are only blanks on that line: then the next line that is not blank gives the words, whatever that
line is for.

* `Words.IsToken`: the tokens of a line.
* `Criterion.StandsAtMostOnce`, **`Criterion.repeatedIn_eq_false_iff`**: labels with one place.
* `Definition.words_of_read`: where the words of a definition come from.
* `Condition.forall_fits_iff`: the conditions that every mail meets.
* **`Rule.own_line_iff`**: the words of a condition, and when they are those of its own line.
* **`Rule.not_forall_own_line`**: they can be those of another line.
-/

namespace SortingOffice

open Text

/-- A token of a line: a piece between commas, trimmed and not empty. -/
def Words.IsToken (line : List Char) (w : String) : Prop :=
  ∃ piece ∈ line.splitOn ',', trim piece ≠ [] ∧ w = String.ofList (trim piece)

theorem Words.not_isToken_of_blank {line : List Char} (h : ∀ c ∈ line, isBlank c = true)
    (w : String) : ¬ IsToken line w := by
  rintro ⟨piece, hpiece, hne, -⟩
  refine hne (trim_eq_nil_iff.2 ?_)
  intro c hc
  exact h c (subset_of_mem_splitOn hpiece hc)

/-! ## Places of a label -/

namespace Criterion

variable {c : Criterion} {text : String}

theorem apart_label_tail : ∀ c : Criterion, Apart c.label.toList c.label.toList.tail := by decide

theorem toList_label_ne_nil (c : Criterion) : c.label.toList ≠ [] :=
  (Draft.isLabel_label c).toList_ne_nil

/-- The label has one place in a text, or none. It may stand anywhere, also in the middle of a
line. -/
def StandsAtMostOnce (c : Criterion) (text : String) : Prop :=
  ∀ front back front' back' : String, text = front ++ c.label ++ back →
    text = front' ++ c.label ++ back' → front = front'

/-- **A label is repeated in a text exactly if it has two places there.** -/
theorem repeatedIn_eq_false_iff : c.repeatedIn text = false ↔ c.StandsAtMostOnce text := by
  have hplace (front back : String) : text = front ++ c.label ++ back ↔
      text.toList = front.toList ++ c.label.toList ++ back.toList := by
    rw [← String.toList_inj, String.toList_append, String.toList_append]
  rw [repeatedIn, Bool.not_eq_false',
    appearsAtMostOnce_iff c.apart_label_tail c.toList_label_ne_nil, firstIsLast_iff]
  constructor
  · intro h front back front' back' htext htext'
    exact String.toList_inj.1 (h _ _ _ _ ((hplace front back).1 htext) ((hplace _ _).1 htext'))
  · intro h front back front' back' htext htext'
    have hfront := h (.ofList front) (.ofList back) (.ofList front') (.ofList back')
      ((hplace _ _).2 (by simpa using htext)) ((hplace _ _).2 (by simpa using htext'))
    exact String.ofList_injective hfront

end Criterion

/-! ## Words of a definition -/

namespace Definition

variable {text front back : String} {d : Definition} {c : Criterion}

/-- The words for each criterion are those behind its label, which is not there a second time. -/
theorem words_of_read (h : Definition.read text = .ok d) (c : Criterion) :
    occurrences c.label text ≤ 1 ∧ d.words c = .ofLine (valueAfter c.label text) := by
  rw [Definition.read] at h
  cases hfind : Criterion.all.find? (·.repeatedIn text) with
  | some c' =>
    rw [hfind] at h
    cases h
  | none =>
    rw [hfind] at h
    obtain rfl := Except.ok.inj h
    have hc := List.find?_eq_none.1 hfind c c.mem_all
    refine ⟨by simpa [Criterion.repeatedIn, appearsAtMostOnce] using hc, ?_⟩
    cases c <;> rfl

/-- The words behind a label are the tokens of the first line behind it that is not blank. -/
theorem mem_words_iff (h : Definition.read text = .ok d) (htext : text = front ++ c.label ++ back)
    (w : String) : w ∈ d.words c ↔ Words.IsToken (firstFilled back.toList) w := by
  obtain ⟨honce, hwords⟩ := words_of_read h c
  have hplace : after? c.label.toList text.toList = some back.toList := by
    rw [htext] at honce ⊢
    exact after?_of_occurrences_le_one c.apart_label_tail c.toList_label_ne_nil honce
  have hvalue : valueAfter c.label text = String.ofList (trim (firstFilled back.toList)) := by
    rw [valueAfter, hplace, ← leadingValue_eq_trim_firstFilled]
  rw [hwords, hvalue, Words.ofLine_trim, Words.mem_ofLine_iff, String.toList_ofList, Words.IsToken]

end Definition

/-! ## Conditions that every mail meets -/

/-- A mail with nothing in it. -/
def emptyMail (received : Moment) : Mail where
  sender := none
  recipients := ∅
  subject := ""
  body := ""
  received

/-- Every mail meets a condition without words, and an empty mail meets no other. -/
theorem Condition.forall_fits_iff {c : Condition} (h : "" ∉ c.words) :
    (∀ m, c.fits m = true) ↔ c.words = ∅ := by
  constructor
  · intro hall
    obtain ⟨criterion, words⟩ := c
    have hempty := hall (emptyMail ⟨⟨1970, 1, 1, by decide, by decide, by decide⟩,
      ⟨0, 0, 0, 0, by decide, by decide, by decide, by decide⟩⟩)
    have hword (w : String) (hw : w ∈ words) (hsub : w.toList <:+: []) : False := by
      rw [List.infix_nil, String.toList_eq_nil_iff] at hsub
      exact h (hsub ▸ hw)
    cases criterion with
    | sender =>
      refine (fits_sender_iff.1 hempty).resolve_right ?_
      rintro ⟨a, ha, -⟩
      cases ha
    | recipients =>
      refine (fits_recipients_iff.1 hempty).resolve_right ?_
      rintro ⟨w, -, hw⟩
      exact Std.ExtTreeSet.not_mem_empty hw
    | subject =>
      rw [Std.ExtTreeSet.eq_empty_iff_forall_not_mem]
      exact fun w hw => hword w hw (fits_subject_iff.1 hempty w hw)
    | subjectOrBody =>
      rw [Std.ExtTreeSet.eq_empty_iff_forall_not_mem]
      exact fun w hw => hword w hw (fits_subjectOrBody_iff.1 hempty w hw)
  · intro hempty m
    exact fits_eq_true_iff.2 (.inl hempty)

/-! ## The own line -/

namespace Rule

variable {folder : Path} {text : String} {priority : Int32} {r : Rule}

/-- **The words of a condition, and when they are those of its own line.** Let a definition have a
label, and let it be accepted. The words of the condition are the tokens of the first line behind
the label that is not blank. They are the tokens of the line on which the label stands, exactly if
that line is not blank behind the label or if there are no tokens in the other one. Every mail meets
the condition exactly if it has no words. -/
theorem own_line_iff (hread : Rule.read folder text priority = .ok r) (c : Criterion)
    (front back : String) (htext : text = front ++ c.label ++ back) :
    let own := back.toList.takeWhile (· != '\n')
    let filled := firstFilled back.toList
    (∀ w, w ∈ r.definition.words c ↔ Words.IsToken filled w) ∧
    ((∀ w, w ∈ r.definition.words c ↔ Words.IsToken own w) ↔
      (∃ a ∈ own, isBlank a = false) ∨ ∀ w, ¬ Words.IsToken filled w) ∧
    ((∀ m, (r.definition.condition c).fits m = true) ↔ ∀ w, ¬ Words.IsToken filled w) := by
  intro own filled
  have hwords (w : String) : w ∈ r.definition.words c ↔ Words.IsToken filled w :=
    Definition.mem_words_iff (Rule.read_eq_ok.1 hread).2.2 htext w
  refine ⟨hwords, ?_, ?_⟩
  · by_cases hown : ∃ a ∈ own, isBlank a = false
    · have hfilled : filled = own := firstFilled_of_not_blank hown
      refine iff_of_true ?_ (.inl hown)
      rw [← hfilled]
      exact hwords
    · -- a blank line has no tokens, so the other one must not have any
      have hblank : ∀ a ∈ own, isBlank a = true := by simpa using hown
      have hnone := Words.not_isToken_of_blank hblank
      simp only [hwords, hnone, iff_false, hown, false_or]
  · have hempty : "" ∉ (r.definition.condition c).words := by
      intro hw
      obtain ⟨piece, -, hne, hpiece⟩ := (hwords "").1 hw
      exact hne (String.ofList_eq_empty_iff.1 hpiece.symm)
    rw [Condition.forall_fits_iff hempty, Std.ExtTreeSet.eq_empty_iff_forall_not_mem]
    exact forall_congr' fun w => not_congr (hwords w)

/-- A label with a word on its line, and a label without. -/
theorem own_line_exam : ∃ r, Rule.read .inbox "from: \nsubject-includes: exam" 5 = .ok r ∧
    (∀ w, w ∈ r.definition.words .subject ↔ Words.IsToken " exam".toList w) ∧
    ∀ w, w ∈ r.definition.words .sender ↔ Words.IsToken "subject-includes: exam".toList w := by
  have hread : ∃ r, Rule.read .inbox "from: \nsubject-includes: exam" 5 = .ok r := ⟨_, rfl⟩
  obtain ⟨r, hread⟩ := hread
  refine ⟨r, hread, ?_, ?_⟩
  · exact (own_line_iff hread .subject "from: \n" " exam" (by decide)).2.1.2
      (.inl ⟨'e', by decide, by decide⟩)
  · exact (own_line_iff hread .sender "" " \nsubject-includes: exam" (by decide)).1

/-- **A condition may read another line.** Behind a label with nothing on its line, the words are
those of the next line, and a mail without a sender does not meet the condition. -/
theorem not_forall_own_line :
    ¬ ∀ (folder : Path) (text : String) (priority : Int32) (r : Rule) (c : Criterion)
      (front back : String), Rule.read folder text priority = .ok r →
      text = front ++ c.label ++ back →
      let own := back.toList.takeWhile (· != '\n')
      (∀ w, w ∈ r.definition.words c ↔ Words.IsToken own w) ∧
      ((∀ a ∈ own, isBlank a = true) →
        r.definition.words c = ∅ ∧ ∀ m, (r.definition.condition c).fits m = true) := by
  intro hclaim
  have hread : ∃ r, Rule.read .inbox "from:\nsubject-includes: exam" 5 = .ok r ∧
      "subject-includes: exam" ∈ r.definition.words .sender :=
    ⟨_, rfl, by decide +kernel⟩
  obtain ⟨r, hread, hmem⟩ := hread
  have hwords := (hclaim .inbox "from:\nsubject-includes: exam" 5 r .sender ""
    "\nsubject-includes: exam" hread (by decide)).1
  have hblank : ∀ a ∈ "\nsubject-includes: exam".toList.takeWhile (· != '\n'),
      isBlank a = true := by
    rw [show "\nsubject-includes: exam".toList.takeWhile (· != '\n') = [] from rfl]
    exact List.forall_mem_nil _
  exact Words.not_isToken_of_blank hblank _ ((hwords _).1 hmem)

end Rule

end SortingOffice
