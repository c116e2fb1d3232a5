import Mathlib.Data.List.Nodup
import SortingOffice.Proofs.Rule.Fits
import SortingOffice.Proofs.Text.Words

/-!
# Definitions line by line

A definition is usually written in lines: one for each criterion, with its label and the tokens
that it asks for, among lines that do not matter. Such a definition means what its lines say,
although the labels are looked for anywhere in the text.

* `Draft`, with `Draft.Entry` and `Draft.Line`: tokens, lines and definitions, none of which has a
  label where it does not belong.
* `Draft.text`, `Draft.tokens`: the text of a draft, and what it asks for.
* `occurrences_line`, **`occurrences_textOf`**: each label is in its own line and nowhere else.
* `mem_ofLine_clause`, **`mem_ofLine_textOf`**: the words behind a label are the tokens of its line.
* `Draft.Fits`, **`Draft.read_text`**: which mails fit the rule that is read from the text, and
  which rules it conflicts with.
-/

namespace SortingOffice

open Text

/-- What holds of all criteria can be checked for the four of them. -/
instance Criterion.decidableForall {P : Criterion → Prop} [∀ c, Decidable (P c)] :
    Decidable (∀ c, P c) :=
  decidable_of_iff (∀ c ∈ Criterion.all, P c) ⟨fun h c => h c c.mem_all, fun h c _ => h c⟩

/-! ## Definitions in lines -/

/-- There are only blanks in a text, which do not end a line. -/
def Draft.Spaces (s : String) : Prop := ∀ c ∈ s.toList, isBlank c = true ∧ c ≠ '\n'

instance (s : String) : Decidable (Draft.Spaces s) :=
  decidable_of_iff (s.toList.all fun c => isBlank c && c != '\n') (by simp [Draft.Spaces])

/-- A token with blanks around it. -/
structure Draft.Entry where
  before : String
  token : String
  after : String
  spaces : Draft.Spaces before ∧ Draft.Spaces after
  plain : ',' ∉ token.toList ∧ '\n' ∉ token.toList
  unlabelled : ∀ c : Criterion, contains c.label token = false

/-- A line of a definition: the label of a criterion with tokens behind it, of which one is not
blank, or something that does not matter. -/
inductive Draft.Line
  | clause (criterion : Criterion) (entries : List Draft.Entry)
    (filled : ∃ e ∈ entries, isBlankText e.token = false)
  | remark (text : String) (plain : '\n' ∉ text.toList)
    (unlabelled : ∀ c : Criterion, contains c.label text = false)

namespace Draft

/-- The token as it is written. -/
def Entry.text (e : Entry) : String := e.before ++ e.token ++ e.after

/-- The token as it is read. -/
def Entry.word (e : Entry) : String := String.ofList (trim e.token.toList)

namespace Line

/-- The line as it is written. -/
def text : Line → String
  | clause c entries _ => c.label ++ ",".intercalate (entries.map Entry.text)
  | remark s _ _ => s

/-- The criterion of a line, if it has one. -/
def criterion? : Line → Option Criterion
  | clause c _ _ => some c
  | remark .. => none

/-- What a line asks for under a criterion: its tokens, trimmed, without the empty ones. -/
def tokens (c : Criterion) : Line → List String
  | clause c' entries _ => if c' = c then (entries.map Entry.word).filter (· ≠ "") else []
  | remark .. => []

end Line

end Draft

/-- A definition in lines, with at most one line for each criterion. -/
structure Draft where
  lines : List Draft.Line
  distinct : (lines.filterMap Draft.Line.criterion?).Nodup

namespace Draft

/-- The text of some lines. -/
def textOf (lines : List Line) : String := "\n".intercalate (lines.map Line.text)

/-- The text of a definition. -/
def text (l : Draft) : String := textOf l.lines

/-- What a definition asks for under a criterion. -/
def tokens (l : Draft) (c : Criterion) : List String := l.lines.flatMap (·.tokens c)

variable {c : Criterion} {entries : List Entry} {line : Line} {lines : List Line}
  {w : String}

/-! ## Labels -/

theorem isLabel_label : ∀ c : Criterion, IsLabel c.label := by decide

/-- No label begins within another one. -/
theorem apart_labels : ∀ {c c' : Criterion}, c ≠ c' → Apart c.label.toList c'.label.toList := by
  decide

/-! ## Where the labels are -/

theorem Entry.toList_text (e : Entry) :
    e.text.toList = e.before.toList ++ e.token.toList ++ e.after.toList := by
  simp [Entry.text]

theorem Entry.not_label_text (e : Entry) (c : Criterion) : ¬ c.label.toList <:+: e.text.toList := by
  have hlabel : IsLabel c.label := isLabel_label c
  have hbefore : ∀ a ∈ e.before.toList, a ∉ c.label.toList := fun a ha =>
    hlabel.notMem_of_blank (e.spaces.1 a ha).1
  have hafter : ∀ a ∈ e.after.toList, a ∉ c.label.toList := fun a ha =>
    hlabel.notMem_of_blank (e.spaces.2 a ha).1
  rw [e.toList_text, infix_append_right_iff hafter hlabel.toList_ne_nil,
    infix_append_left_iff hbefore hlabel.toList_ne_nil, ← contains_eq_false_iff]
  exact e.unlabelled c

theorem not_label_entries (entries : List Entry) (c : Criterion) :
    ¬ c.label.toList <:+: (",".intercalate (entries.map Entry.text)).toList := by
  have hlabel : IsLabel c.label := isLabel_label c
  have hcomma : ∀ a ∈ ",".toList, a ∉ c.label.toList :=
    List.forall_mem_singleton.2 hlabel.comma_notMem
  rw [infix_intercalate_iff hcomma (by decide) hlabel.toList_ne_nil]
  simp only [List.mem_map, exists_exists_and_eq_and, not_exists, not_and]
  exact fun e _ => e.not_label_text c

theorem exists_of_criterion? (h : line.criterion? = some c) : ∃ entries filled,
    line = .clause c entries filled := by
  cases line with
  | clause c' entries filled =>
    obtain rfl : c' = c := Option.some.inj h
    exact ⟨entries, filled, rfl⟩
  | remark s plain unlabelled => cases h

/-- **A line has a label if it is its own.** -/
theorem label_line_iff : c.label.toList <:+: line.text.toList ↔ line.criterion? = some c := by
  constructor
  · intro hlabel
    cases line with
    | clause c' entries filled =>
      by_contra h
      have hne : c ≠ c' := fun hc => h (congrArg some hc.symm)
      rw [Line.text, String.toList_append, (apart_labels hne).infix_append_iff] at hlabel
      exact not_label_entries entries c hlabel
    | remark s plain unlabelled => exact absurd hlabel (contains_eq_false_iff.1 (unlabelled c))
  · intro h
    obtain ⟨entries, filled, rfl⟩ := exists_of_criterion? h
    rw [Line.text, String.toList_append]
    exact (List.prefix_append _ _).isInfix

/-- A line has a label once if it is its own, and otherwise not at all. -/
theorem occurrences_line (line : Line) (c : Criterion) :
    occurrences c.label line.text = if line.criterion? = some c then 1 else 0 := by
  rw [occurrences]
  by_cases h : line.criterion? = some c
  · obtain ⟨entries, filled, rfl⟩ := exists_of_criterion? h
    rw [if_pos h, Line.text, String.toList_append,
      countFrom_key_append (isLabel_label c).toList_ne_nil,
      countFrom_eq_zero (not_label_entries entries c)]
  · rw [if_neg h, countFrom_eq_zero (mt label_line_iff.1 h)]

theorem textOf_cons_cons (line line' : Line) (lines : List Line) :
    textOf (line :: line' :: lines) = line.text ++ "\n" ++ textOf (line' :: lines) :=
  String.intercalate_cons_cons

/-- **A label stands in a text once for each line that is its own.** -/
theorem occurrences_textOf (lines : List Line) (c : Criterion) :
    occurrences c.label (textOf lines) = (lines.filterMap Line.criterion?).count c := by
  induction lines with
  | nil =>
    have hlabel := (isLabel_label c).toList_ne_nil
    simp [occurrences, textOf, countFrom, hlabel]
  | cons line lines ih =>
    have hline : (List.filterMap Line.criterion? (line :: lines)).count c =
        (if line.criterion? = some c then 1 else 0) +
          (lines.filterMap Line.criterion?).count c := by
      cases h : line.criterion? with
      | none => simp [h]
      | some c' =>
        rw [List.filterMap_cons_some h, List.count_cons, Nat.add_comm]
        simp
    cases lines with
    | nil =>
      rw [hline, textOf, List.map_singleton, String.intercalate_singleton, occurrences_line]
      rfl
    | cons line' lines =>
      rw [hline, ← ih, textOf_cons_cons, occurrences_append_line (isLabel_label c),
        occurrences_line]

/-! ## What stands behind the labels -/

theorem Entry.trim_text (e : Entry) : trim e.text.toList = e.word.toList := by
  rw [e.toList_text, trim_append_right fun a ha => (e.spaces.2 a ha).1,
    trim_append_left fun a ha => (e.spaces.1 a ha).1, Entry.word, String.toList_ofList]

theorem Entry.comma_notMem_text (e : Entry) : ',' ∉ e.text.toList := by
  have hspaces {s : String} (hs : Spaces s) : ',' ∉ s.toList := fun h =>
    absurd (hs _ h).1 (by decide)
  simp [e.toList_text, hspaces e.spaces.1, hspaces e.spaces.2, e.plain.1]

theorem Entry.newline_notMem_text (e : Entry) : '\n' ∉ e.text.toList := by
  have hspaces {s : String} (hs : Spaces s) : '\n' ∉ s.toList := fun h => (hs _ h).2 rfl
  simp [e.toList_text, hspaces e.spaces.1, hspaces e.spaces.2, e.plain.2]

theorem newline_notMem_entries (entries : List Entry) :
    '\n' ∉ (",".intercalate (entries.map Entry.text)).toList :=
  notMem_intercalate (by decide) (by decide)
    (List.forall_mem_map.2 fun e _ => e.newline_notMem_text)

theorem Entry.mem_ofLine_iff (e : Entry) :
    w ∈ Words.ofLine e.text ↔ e.word ≠ "" ∧ w = e.word := by
  rw [Words.mem_ofLine_of_notMem e.comma_notMem_text, e.trim_text, ne_eq,
    String.toList_eq_nil_iff, String.toList_inj]

theorem mem_ofLine_entries (entries : List Entry) :
    w ∈ Words.ofLine (",".intercalate (entries.map Entry.text)) ↔
      w ∈ (entries.map Entry.word).filter (· ≠ "") := by
  rw [Words.mem_ofLine_intercalate (by decide)]
  simp only [List.mem_map, exists_exists_and_eq_and, Entry.mem_ofLine_iff, List.mem_filter,
    decide_eq_true_eq]
  constructor
  · rintro ⟨e, he, hne, rfl⟩
    exact ⟨⟨e, he, rfl⟩, hne⟩
  · rintro ⟨⟨e, he, rfl⟩, hne⟩
    exact ⟨e, he, hne, rfl⟩

/-- **The words behind the label of a line are its tokens.** -/
theorem mem_ofLine_clause (filled : ∃ e ∈ entries, isBlankText e.token = false) :
    w ∈ Words.ofLine (valueAfter c.label (Line.clause c entries filled).text) ↔
      w ∈ (Line.clause c entries filled).tokens c := by
  rw [Line.text, valueAfter_self, leadingValue_of_notMem (newline_notMem_entries entries),
    Words.ofLine_trim, String.ofList_toList, mem_ofLine_entries, Line.tokens, if_pos rfl]

theorem exists_mem_tokens (filled : ∃ e ∈ entries, isBlankText e.token = false) :
    ∃ w, w ∈ (Line.clause c entries filled).tokens c := by
  have ⟨e, he, hblank⟩ := filled
  refine ⟨e.word, ?_⟩
  have hne : e.word ≠ "" := by
    intro hword
    rw [Entry.word, String.ofList_eq_empty_iff, trim_eq_nil_iff] at hword
    rw [isBlankText, List.all_eq_true.2 hword] at hblank
    cases hblank
  rw [Line.tokens, if_pos rfl, List.mem_filter]
  exact ⟨List.mem_map_of_mem he, by simpa using hne⟩

theorem tokens_of_ne (h : line.criterion? ≠ some c) : line.tokens c = [] := by
  cases line with
  | clause c' entries filled => exact if_neg fun hc => h (congrArg some hc)
  | remark s plain unlabelled => rfl

theorem flatMap_tokens_of_notMem (h : c ∉ lines.filterMap Line.criterion?) :
    lines.flatMap (·.tokens c) = [] := by
  rw [List.flatMap_eq_nil_iff]
  intro line hline
  exact tokens_of_ne fun hc => h (List.mem_filterMap.2 ⟨line, hline, hc⟩)

theorem valueAfter_line_ne (h : line.criterion? = some c) :
    valueAfter c.label line.text ≠ "" := by
  obtain ⟨entries, filled, rfl⟩ := exists_of_criterion? h
  obtain ⟨w, hw⟩ := exists_mem_tokens (c := c) filled
  rw [← mem_ofLine_clause filled] at hw
  intro hempty
  rw [hempty] at hw
  exact Words.notMem_ofLine_empty w hw

theorem valueAfter_empty : ∀ c : Criterion, valueAfter c.label "" = "" := by decide

/-- **The value behind a label is that of its line**, the other lines do not matter. -/
theorem valueAfter_textOf_cons (line : Line) (lines : List Line) (c : Criterion) :
    valueAfter c.label (textOf (line :: lines)) =
      if line.criterion? = some c then valueAfter c.label line.text
      else valueAfter c.label (textOf lines) := by
  have hcontains : contains c.label line.text = true ↔ line.criterion? = some c := by
    rw [contains_iff, label_line_iff]
  cases lines with
  | nil =>
    have htext : textOf [line] = line.text := String.intercalate_singleton
    rw [htext]
    by_cases h : line.criterion? = some c
    · rw [if_pos h]
    · have hnone : contains c.label line.text = false := by
        rwa [← Bool.not_eq_true, hcontains]
      rw [if_neg h, valueAfter_of_not_contains hnone]
      exact (valueAfter_empty c).symm
  | cons line' lines =>
    rw [textOf_cons_cons, valueAfter_append_line (isLabel_label c).newline_notMem]
    by_cases h : line.criterion? = some c
    · rw [if_pos h, if_pos (hcontains.2 h), if_neg (valueAfter_line_ne h)]
    · rw [if_neg h, if_neg (mt hcontains.1 h)]

/-- **The words behind a label are the tokens of its line**, or none if it has no line. -/
theorem mem_ofLine_textOf (hdistinct : (lines.filterMap Line.criterion?).Nodup) :
    w ∈ Words.ofLine (valueAfter c.label (textOf lines)) ↔
      w ∈ lines.flatMap (·.tokens c) := by
  induction lines with
  | nil =>
    show w ∈ Words.ofLine (valueAfter c.label "") ↔ w ∈ []
    rw [valueAfter_empty]
    exact iff_of_false (Words.notMem_ofLine_empty w) List.not_mem_nil
  | cons line lines ih =>
    rw [valueAfter_textOf_cons, List.flatMap_cons]
    by_cases h : line.criterion? = some c
    · -- the other lines are not about the criterion
      obtain ⟨entries, filled, rfl⟩ := exists_of_criterion? h
      rw [List.filterMap_cons_some h, List.nodup_cons] at hdistinct
      rw [if_pos h, mem_ofLine_clause filled, flatMap_tokens_of_notMem hdistinct.1,
        List.append_nil]
    · have hrest : (lines.filterMap Line.criterion?).Nodup :=
        hdistinct.sublist ((List.sublist_cons_self line lines).filterMap Line.criterion?)
      rw [if_neg h, tokens_of_ne h, List.nil_append, ih hrest]

/-! ## What a draft means -/

/-- Whether a mail has what a draft asks for: its sender is each of the tokens for the sender, one
of the tokens for the recipients is a recipient, and all others stand in the subject or, as far as
they may, in the body or across the end of the subject. -/
def Fits (l : Draft) (m : Mail) : Prop :=
  (l.tokens .sender = [] ∨ ∃ a, m.sender = some a ∧ ∀ w ∈ l.tokens .sender, a.email = w) ∧
  (l.tokens .recipients = [] ∨ ∃ w ∈ l.tokens .recipients, w ∈ m.recipients) ∧
  (∀ w ∈ l.tokens .subject, w.toList <:+: m.subject.toList) ∧
  ∀ w ∈ l.tokens .subjectOrBody, w.toList <:+: m.subject.toList ∨ w.toList <:+: m.body.toList ∨
    ∃ u v, w = u ++ v ∧ u ≠ "" ∧ v ≠ "" ∧ u.toList <:+ m.subject.toList ∧ v.toList <+: m.body.toList

theorem exists_read_text (l : Draft) :
    ∃ d, Definition.read l.text = .ok d ∧ ∀ c w, w ∈ d.words c ↔ w ∈ l.tokens c := by
  have hrepeated : Criterion.all.find? (·.repeatedIn l.text) = none := by
    rw [List.find?_eq_none]
    intro c _
    have hcount := List.nodup_iff_count_le_one.1 l.distinct c
    rw [Criterion.repeatedIn, appearsAtMostOnce, text, occurrences_textOf]
    simpa using hcount
  rw [Definition.read, hrepeated]
  refine ⟨_, rfl, ?_⟩
  intro c w
  rw [tokens, ← mem_ofLine_textOf l.distinct]
  cases c <;> rfl

theorem fits_iff_of_words {l : Draft} {r : Rule}
    (hwords : ∀ c w, w ∈ r.definition.words c ↔ w ∈ l.tokens c) (m : Mail) :
    r.fits m = true ↔ l.Fits m := by
  have hempty (c : Criterion) : r.definition.words c = ∅ ↔ l.tokens c = [] := by
    rw [Std.ExtTreeSet.eq_empty_iff_forall_not_mem, List.eq_nil_iff_forall_not_mem]
    simp only [hwords]
  have hsender (w : String) : w ∈ r.definition.sender ↔ w ∈ l.tokens .sender := hwords .sender w
  have hrecipients (w : String) : w ∈ r.definition.recipients ↔ w ∈ l.tokens .recipients :=
    hwords .recipients w
  have hsubject (w : String) : w ∈ r.definition.subject ↔ w ∈ l.tokens .subject :=
    hwords .subject w
  have hbody (w : String) : w ∈ r.definition.subjectOrBody ↔ w ∈ l.tokens .subjectOrBody :=
    hwords .subjectOrBody w
  have hnosender : r.definition.sender = ∅ ↔ l.tokens .sender = [] := hempty .sender
  have hnorecipients : r.definition.recipients = ∅ ↔ l.tokens .recipients = [] :=
    hempty .recipients
  rw [Rule.fits_iff, Fits, hnosender, hnorecipients]
  simp only [hsender, hrecipients, hsubject, hbody, infix_append_text_iff]

/-- **A draft means what its lines say.** -/
theorem read_text (l : Draft) (folder : Path) (priority : Int32) :
    ∃ r, Rule.read folder l.text priority = .ok r ∧ r.folder = folder ∧ r.priority = priority ∧
      (∀ c w, w ∈ r.definition.words c ↔ w ∈ l.tokens c) ∧
      (∀ m, r.fits m = true ↔ l.Fits m) ∧
      ∀ (l' : Draft) (folder' : Path) (priority' : Int32) (r' : Rule),
        Rule.read folder' l'.text priority' = .ok r' →
          (r.conflictsWith r' = true ↔
            priority = priority' ∧ ∀ c w, w ∈ l.tokens c ↔ w ∈ l'.tokens c) := by
  obtain ⟨d, hread, hwords⟩ := exists_read_text l
  refine ⟨⟨folder, priority, d⟩, Rule.read_eq_ok.2 ⟨rfl, rfl, hread⟩, rfl, rfl, hwords, ?_, ?_⟩
  · exact fun m => fits_iff_of_words hwords m
  · intro l' folder' priority' r' hread'
    obtain ⟨-, hpriority', hdefinition'⟩ := Rule.read_eq_ok.1 hread'
    obtain ⟨d', hread'', hwords'⟩ := exists_read_text l'
    obtain rfl : r'.definition = d' := Except.ok.inj (hdefinition'.symm.trans hread'')
    rw [Rule.conflictsWith_iff_words, hpriority']
    simp only [hwords, hwords']

/-- A draft with notes and blanks. -/
def examDraft : Draft where
  lines := [
    .remark "School:" (by decide) (by decide),
    .clause .subject [
      ⟨" ", "exam", "\t", by decide, by decide, by decide⟩,
      ⟨"", "", " ", by decide, by decide, by decide⟩,
      ⟨"", " final math ", "\r", by decide, by decide, by decide⟩]
      ⟨_, List.mem_cons_self, by decide⟩,
    .remark "" (by decide) (by decide),
    .clause .sender [⟨"", "ann@x.com", "", by decide, by decide, by decide⟩]
      ⟨_, List.mem_cons_self, by decide⟩]
  distinct := by decide

example : examDraft.text =
    "School:\nsubject-includes: exam\t, , final math \r\n\nfrom:ann@x.com" := by
  decide +kernel

/-- The same in other words. -/
def terseDraft : Draft where
  lines := [
    .clause .sender [⟨" ", "ann@x.com", "", by decide, by decide, by decide⟩]
      ⟨_, List.mem_cons_self, by decide⟩,
    .clause .subject [
      ⟨"", "final math", "", by decide, by decide, by decide⟩,
      ⟨"", "exam", "", by decide, by decide, by decide⟩]
      ⟨_, List.mem_cons_self, by decide⟩]
  distinct := by decide

theorem drafts_conflict : ∃ r r', Rule.read .inbox examDraft.text 3 = .ok r ∧
    Rule.read .sent terseDraft.text 3 = .ok r' ∧ r.conflictsWith r' = true := by
  obtain ⟨r, hread, -, -, -, -, hconflicts⟩ := examDraft.read_text .inbox 3
  obtain ⟨r', hread', -⟩ := terseDraft.read_text .sent 3
  have htokens (c : Criterion) : (examDraft.tokens c).Perm (terseDraft.tokens c) := by
    cases c <;> decide +kernel
  exact ⟨r, r', hread, hread', (hconflicts terseDraft .sent 3 r' hread').2
    ⟨rfl, fun c w => (htokens c).mem_iff⟩⟩

end Draft

end SortingOffice
