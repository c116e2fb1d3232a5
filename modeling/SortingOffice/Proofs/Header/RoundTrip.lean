import SortingOffice.Proofs.Samples
import SortingOffice.Proofs.Text.Words
import SortingOffice.Proofs.Time.MinuteText

/-!
# Reading a written header

The labels are looked for anywhere in the text. So the text of a header is read back line by line
only as far as no value has the label of a later line in it, and no value is empty.

* `Plain`, `plain_of_read`: the headers that come from a text.
* `valueAfter_sender` and the like: what is read behind each label of a written header.
* **`read_toText_iff`**: which plain headers are read back.
* **`read_toText_iff_of_unmixed`**: the same without labels in the values.
* **`read_toText_iff_of_read`**: the same for what was read from a text.
-/

namespace SortingOffice.Header

open Text

variable {h : Header} {text label key front own value rest : String}

/-! ## Plain headers -/

/-- A header whose values can stand behind labels. -/
structure Plain (h : Header) : Prop where
  sender : IsValue h.sender
  subject : IsValue h.subject
  recipients : ∀ r ∈ h.recipients, Words.Clean r
  received : h.received.IsWhole

theorem read_eq_ok : read text = .ok h ↔
    valueAfter senderLabel text = h.sender ∧ valueAfter subjectLabel text = h.subject ∧
      Words.ofLine (valueAfter recipientsLabel text) = h.recipients ∧
      Moment.readMinuteText (valueAfter receivedLabel text) = .ok h.received := by
  rw [read]
  cases hreceived : Moment.readMinuteText (valueAfter receivedLabel text) with
  | error reason => simp
  | ok received =>
    obtain ⟨sender, subject, recipients, received'⟩ := h
    simp

/-- **Whatever is read from a text is plain.** -/
theorem plain_of_read (hread : read text = .ok h) : Plain h := by
  obtain ⟨hsender, hsubject, hrecipients, hreceived⟩ := read_eq_ok.1 hread
  refine ⟨?_, ?_, ?_, Moment.isWhole_of_readMinuteText hreceived⟩
  · rw [← hsender]
    exact isValue_valueAfter _ _
  · rw [← hsubject]
    exact isValue_valueAfter _ _
  · intro r hr
    rw [← hrecipients] at hr
    exact Words.clean_of_mem_ofLine (isValue_valueAfter _ _).2 hr

/-! ## The parts of a written header -/

theorem isLabel_subject : IsLabel subjectLabel := by decide

theorem isLabel_recipients : IsLabel recipientsLabel := by decide

theorem isLabel_received : IsLabel receivedLabel := by decide

/-- The text of a header up to the line of the sender. -/
def uptoSender (h : Header) : String := senderLabel ++ " " ++ h.sender

/-- The text of a header up to the line of the subject. -/
def uptoSubject (h : Header) : String :=
  h.uptoSender ++ "\n" ++ (subjectLabel ++ " " ++ h.subject)

/-- The text of a header up to the line of the recipients. -/
def uptoRecipients (h : Header) : String :=
  h.uptoSubject ++ "\n" ++ (recipientsLabel ++ " " ++ h.recipientsLine)

/-- The last line of a written header. -/
def receivedText (h : Header) : String := receivedLabel ++ " " ++ h.received.toMinuteText

theorem toList_receivedText (h : Header) :
    h.receivedText.toList = 'r' :: ("eceived: " ++ h.received.toMinuteText).toList := by
  simp [receivedText, receivedLabel]

theorem contains_uptoSender :
    contains subjectLabel h.uptoSender = true ↔ contains subjectLabel h.sender = true := by
  have hlabel : contains subjectLabel senderLabel = false := by decide
  rw [uptoSender, contains_line isLabel_subject, hlabel]
  simp only [Bool.false_eq_true, false_or]

theorem contains_uptoSubject : contains recipientsLabel h.uptoSubject = true ↔
    contains recipientsLabel h.sender = true ∨ contains recipientsLabel h.subject = true := by
  have hlabels : contains recipientsLabel senderLabel = false ∧
      contains recipientsLabel subjectLabel = false := by decide
  rw [uptoSubject, uptoSender, contains_lines isLabel_recipients, contains_line isLabel_recipients,
    contains_line isLabel_recipients, hlabels.1, hlabels.2]
  simp only [Bool.false_eq_true, false_or]

theorem contains_uptoRecipients : contains receivedLabel h.uptoRecipients = true ↔
    contains receivedLabel h.sender = true ∨ contains receivedLabel h.subject = true ∨
      ∃ r ∈ h.recipients, contains receivedLabel r = true := by
  have hlabels : contains receivedLabel senderLabel = false ∧
      contains receivedLabel subjectLabel = false ∧
      contains receivedLabel recipientsLabel = false := by decide
  have hrecipients : contains receivedLabel h.recipientsLine = true ↔
      ∃ r ∈ h.recipients, contains receivedLabel r = true :=
    Words.contains_toLine_iff isLabel_received
  rw [uptoRecipients, uptoSubject, uptoSender, contains_lines isLabel_received,
    contains_lines isLabel_received, contains_line isLabel_received,
    contains_line isLabel_received, contains_line isLabel_received, hrecipients, hlabels.1,
    hlabels.2.1, hlabels.2.2]
  simp only [Bool.false_eq_true, false_or, or_assoc]

theorem toText_eq_sender : h.toText = senderLabel ++ (" " ++ h.sender ++ "\n" ++
    (subjectLabel ++ " " ++ h.subject ++ "\n" ++
      (recipientsLabel ++ " " ++ h.recipientsLine ++ "\n" ++ h.receivedText))) := by
  simp only [toText, receivedText, String.append_assoc]

theorem toText_eq_subject : h.toText = h.uptoSender ++ "\n" ++
    (subjectLabel ++ " " ++ h.subject ++ "\n" ++
      (recipientsLabel ++ " " ++ h.recipientsLine ++ "\n" ++ h.receivedText)) := by
  simp only [toText, uptoSender, receivedText, String.append_assoc]

theorem toText_eq_recipients : h.toText = h.uptoSubject ++ "\n" ++
    (recipientsLabel ++ " " ++ h.recipientsLine ++ "\n" ++ h.receivedText) := by
  simp only [toText, uptoSubject, uptoSender, receivedText, String.append_assoc]

theorem toText_eq_received : h.toText = h.uptoRecipients ++ "\n" ++ h.receivedText := by
  simp only [toText, uptoRecipients, uptoSubject, uptoSender, receivedText, String.append_assoc]

/-! ## Reading the parts -/

theorem Plain.isValue_recipientsLine (hplain : Plain h) : IsValue h.recipientsLine :=
  Words.isValue_toLine hplain.recipients

theorem Plain.valueAfter_sender_eq (hplain : Plain h) :
    valueAfter senderLabel h.toText = h.sender ↔ h.sender ≠ "" := by
  have hsubject := trim_line_ne_nil isLabel_subject hplain.subject
  rw [toText_eq_sender, valueAfter_self, leadingValue_line hplain.sender,
    leadingValue_of_lines isLabel_subject hplain.subject]
  by_cases hempty : h.sender = ""
  · -- an empty sender takes the line of the subject
    rw [if_pos hempty, hempty, String.ofList_eq_empty_iff]
    exact iff_of_false hsubject fun h => h rfl
  · rw [if_neg hempty, String.ofList_toList]
    exact iff_of_true rfl hempty

theorem Plain.valueAfter_subject_eq (hplain : Plain h) :
    valueAfter subjectLabel h.toText = h.subject ↔
      h.subject ≠ "" ∧ (contains subjectLabel h.uptoSender = true →
        valueAfter subjectLabel h.uptoSender = h.subject) := by
  have hrecipients := hplain.isValue_recipientsLine
  rw [toText_eq_subject, valueAfter_lines isLabel_subject hplain.subject,
    leadingValue_of_lines isLabel_recipients hrecipients]
  by_cases hfront : contains subjectLabel h.uptoSender = true
  · rw [if_pos hfront]
    by_cases hvalue : valueAfter subjectLabel h.uptoSender = ""
    · -- the label at the end of the sender takes the line of the subject
      rw [if_pos hvalue, ← String.toList_inj, String.toList_ofList]
      refine iff_of_false (trim_line_ne isLabel_subject hplain.subject) fun h => h.1 ?_
      rw [← h.2 hfront, hvalue]
    · rw [if_neg hvalue]
      refine ⟨fun h => ⟨?_, fun _ => h⟩, fun h => h.2 hfront⟩
      rwa [← h]
  · rw [if_neg hfront]
    by_cases hempty : h.subject = ""
    · -- an empty subject takes the line of the recipients
      refine iff_of_false ?_ fun h => h.1 hempty
      rw [if_pos hempty, hempty, String.ofList_eq_empty_iff]
      exact trim_line_ne_nil isLabel_recipients hrecipients
    · rw [if_neg hempty]
      exact iff_of_true rfl ⟨hempty, fun h => absurd h hfront⟩

theorem Plain.valueAfter_recipients_eq (hplain : Plain h) :
    Words.ofLine (valueAfter recipientsLabel h.toText) = h.recipients ↔
      if contains recipientsLabel h.uptoSubject = true then
        valueAfter recipientsLabel h.uptoSubject ≠ "" ∧
          Words.ofLine (valueAfter recipientsLabel h.uptoSubject) = h.recipients
      else h.recipients ≠ ∅ := by
  have htime := Moment.isValue_toMinuteText h.received
  rw [toText_eq_recipients, valueAfter_lines isLabel_recipients hplain.isValue_recipientsLine]
  by_cases hfront : contains recipientsLabel h.uptoSubject = true
  · rw [if_pos hfront, if_pos hfront]
    by_cases hvalue : valueAfter recipientsLabel h.uptoSubject = ""
    · -- the label at the end of the lines before takes the line of the recipients
      rw [if_pos hvalue, Words.ofLine_trim, String.ofList_toList]
      have hlabel : Words.Clean recipientsLabel := Words.clean_of_isLabel isLabel_recipients
      exact iff_of_false (Words.ofLine_label_ne hlabel hplain.recipients) fun h => h.1 hvalue
    · rw [if_neg hvalue]
      exact ⟨fun h => ⟨hvalue, h⟩, fun h => h.2⟩
  · rw [if_neg hfront, if_neg hfront]
    by_cases hempty : h.recipientsLine = ""
    · -- without recipients their label takes the line of the time
      have hnone : h.recipients = ∅ := (Words.toLine_eq_empty_iff hplain.recipients).1 hempty
      rw [if_pos hempty, receivedText, leadingValue_of_line isLabel_received htime.1,
        trim_line isLabel_received htime.1, if_neg htime.2, String.ofList_toList, hnone,
        ← receivedText]
      exact iff_of_false (Words.ofLine_ne_empty (toList_receivedText h) (by decide) (by decide))
        fun h => h rfl
    · have hsome : h.recipients ≠ ∅ := mt (Words.toLine_eq_empty_iff hplain.recipients).2 hempty
      have hwords : ∀ r ∈ h.recipients, Words.IsWord r := fun r hr =>
        (hplain.recipients r hr).isWord
      rw [if_neg hempty, recipientsLine, Words.ofLine_toLine hwords]
      exact iff_of_true rfl hsome

theorem Plain.valueAfter_received_eq (hplain : Plain h) :
    Moment.readMinuteText (valueAfter receivedLabel h.toText) = .ok h.received ↔
      (contains receivedLabel h.uptoRecipients = true →
        Moment.readMinuteText (valueAfter receivedLabel h.uptoRecipients) = .ok h.received) := by
  have htime := Moment.isValue_toMinuteText h.received
  have hself : valueAfter receivedLabel h.receivedText = h.received.toMinuteText := by
    have hnewline : '\n' ∉ (" " ++ h.received.toMinuteText).toList := by simp [htime.1.2]
    have hspace : (" " ++ h.received.toMinuteText).toList =
        [' '] ++ h.received.toMinuteText.toList := String.toList_append
    rw [receivedText, String.append_assoc, valueAfter_self, leadingValue_of_notMem hnewline, hspace,
      trim_append_left isBlank_of_mem_space, htime.1.1, String.ofList_toList]
  have hempty : Moment.readMinuteText "" ≠ .ok h.received := by
    intro h
    cases h
  rw [toText_eq_received, valueAfter_append_line isLabel_received.newline_notMem, hself]
  by_cases hfront : contains receivedLabel h.uptoRecipients = true
  · rw [if_pos hfront]
    by_cases hvalue : valueAfter receivedLabel h.uptoRecipients = ""
    · -- the label at the end of the lines before takes the line of the time
      rw [if_pos hvalue, hvalue, receivedText, leadingValue_of_line isLabel_received htime.1,
        trim_line isLabel_received htime.1, if_neg htime.2, String.ofList_toList,
        ← receivedText]
      have hletter := Moment.readMinuteText_ne_ok (m := h.received) (toList_receivedText h)
        (by decide) (by decide) (by decide) (by decide)
      exact iff_of_false hletter fun h => hempty (h hfront)
    · rw [if_neg hvalue]
      exact ⟨fun h _ => h, fun h => h hfront⟩
  · rw [if_neg hfront]
    exact iff_of_true (Moment.readMinuteText_toMinuteText hplain.received)
      fun h => absurd h hfront

/-! ## Which headers are read back -/

/-- **Which plain headers are read back.** -/
theorem Plain.read_toText_iff (hplain : Plain h) : read h.toText = .ok h ↔
    h.sender ≠ "" ∧
    (h.subject ≠ "" ∧ (contains subjectLabel h.uptoSender = true →
      valueAfter subjectLabel h.uptoSender = h.subject)) ∧
    (if contains recipientsLabel h.uptoSubject = true then
      valueAfter recipientsLabel h.uptoSubject ≠ "" ∧
        Words.ofLine (valueAfter recipientsLabel h.uptoSubject) = h.recipients
      else h.recipients ≠ ∅) ∧
    (contains receivedLabel h.uptoRecipients = true →
      Moment.readMinuteText (valueAfter receivedLabel h.uptoRecipients) = .ok h.received) := by
  rw [read_eq_ok, hplain.valueAfter_sender_eq, hplain.valueAfter_subject_eq,
    hplain.valueAfter_recipients_eq, hplain.valueAfter_received_eq]

/-- No value has the label of a later line in it. -/
structure Unmixed (h : Header) : Prop where
  sender : contains subjectLabel h.sender = false ∧ contains recipientsLabel h.sender = false ∧
    contains receivedLabel h.sender = false
  subject : contains recipientsLabel h.subject = false ∧ contains receivedLabel h.subject = false
  recipients : ∀ r ∈ h.recipients, contains receivedLabel r = false

/-- **Without labels in its values, a plain header is read back if none of them is empty.** -/
theorem read_toText_iff_of_unmixed (hplain : Plain h) (hunmixed : Unmixed h) :
    read h.toText = .ok h ↔ h.sender ≠ "" ∧ h.subject ≠ "" ∧ h.recipients ≠ ∅ := by
  obtain ⟨⟨hsubject, hrecipients, hreceived⟩, ⟨hrecipients', hreceived'⟩, hreceived''⟩ := hunmixed
  have hsender : ¬ contains subjectLabel h.uptoSender = true := by
    simp [contains_uptoSender, hsubject]
  have hlines : ¬ contains recipientsLabel h.uptoSubject = true := by
    simp [contains_uptoSubject, hrecipients, hrecipients']
  have hlines' : ¬ contains receivedLabel h.uptoRecipients = true := by
    simpa [contains_uptoRecipients, hreceived, hreceived'] using hreceived''
  rw [hplain.read_toText_iff, if_neg hlines]
  simp only [hsender, hlines', Bool.false_eq_true, false_imp_iff, and_true]

theorem ancient_read_back :
    Plain ancient ∧ Unmixed ancient ∧ read ancient.toText = .ok ancient := by
  have hplain : Plain ancient := ⟨by decide +kernel, by decide +kernel,
    fun r hr => Words.clean_of_mem_ofLine (by decide) hr, rfl, rfl⟩
  have hwords : ∀ r ∈ ancient.recipients.toList, contains receivedLabel r = false := by
    decide +kernel
  have hunmixed : Unmixed ancient := ⟨by decide +kernel, by decide +kernel,
    fun r hr => hwords r (Std.ExtTreeSet.mem_toList.2 hr)⟩
  exact ⟨hplain, hunmixed, (read_toText_iff_of_unmixed hplain hunmixed).2 (by decide +kernel)⟩

/-- **Which of the headers that were read from a text are read back.** If no value is empty, it
depends on the labels in the values only. -/
theorem read_toText_iff_of_read (hread : read text = .ok h) (hsender : h.sender ≠ "")
    (hsubject : h.subject ≠ "") (hrecipients : h.recipients ≠ ∅) : read h.toText = .ok h ↔
      (contains subjectLabel h.sender = true →
        valueAfter subjectLabel h.uptoSender = h.subject) ∧
      (contains recipientsLabel h.sender = true ∨ contains recipientsLabel h.subject = true →
        Words.ofLine (valueAfter recipientsLabel h.uptoSubject) = h.recipients) ∧
      (contains receivedLabel h.sender = true ∨ contains receivedLabel h.subject = true ∨
          (∃ r ∈ h.recipients, contains receivedLabel r = true) →
        Moment.readMinuteText (valueAfter receivedLabel h.uptoRecipients) = .ok h.received) := by
  have hvalue : Words.ofLine (valueAfter recipientsLabel h.uptoSubject) = h.recipients →
      valueAfter recipientsLabel h.uptoSubject ≠ "" := by
    intro hline hempty
    rw [hempty] at hline
    exact hrecipients hline.symm
  rw [(plain_of_read hread).read_toText_iff, contains_uptoSender, ← contains_uptoSubject,
    contains_uptoRecipients]
  by_cases hlabel : contains recipientsLabel h.uptoSubject = true
  · rw [if_pos hlabel]
    constructor
    · rintro ⟨-, ⟨-, hsubject'⟩, ⟨-, hrecipients'⟩, hreceived⟩
      exact ⟨hsubject', fun _ => hrecipients', hreceived⟩
    · rintro ⟨hsubject', hrecipients', hreceived⟩
      exact ⟨hsender, ⟨hsubject, hsubject'⟩, ⟨hvalue (hrecipients' hlabel), hrecipients' hlabel⟩,
        hreceived⟩
  · rw [if_neg hlabel]
    constructor
    · rintro ⟨-, ⟨-, hsubject'⟩, -, hreceived⟩
      exact ⟨hsubject', fun h => absurd h hlabel, hreceived⟩
    · rintro ⟨hsubject', -, hreceived⟩
      exact ⟨hsender, ⟨hsubject, hsubject'⟩, hrecipients, hreceived⟩

/-- A text with the subject in its last line. -/
def subjectLast (subject : String) : String :=
  "sender: a@x.com\nreceived: 2022-12-08 14:14\nrecipients: b@x.com\nsubject: " ++ subject

/-- A subject that tells the time once more. -/
def timedSubject : String := "call received: 2022-12-8 14:14"

theorem timedSubject_read_back :
    read (subjectLast timedSubject) = .ok (about timedSubject) ∧
      read (about timedSubject).toText = .ok (about timedSubject) := by
  have hread : read (subjectLast timedSubject) = .ok (about timedSubject) := by decide +kernel
  have hiff := read_toText_iff_of_read hread (by decide +kernel) (by decide +kernel)
    (by decide +kernel)
  exact ⟨hread, hiff.2 ⟨by decide +kernel, by decide +kernel, fun _ => by decide +kernel⟩⟩

/-- The label of the time in a subject is found before the line of the time. -/
theorem not_forall_read_toText : ¬ ∀ text h, read text = .ok h → read h.toText = .ok h := by
  intro hall
  have hread : read (subjectLast "payment received: thanks") =
      .ok (about "payment received: thanks") := by decide +kernel
  have hback : read (about "payment received: thanks").toText ≠
      .ok (about "payment received: thanks") := by decide +kernel
  exact hback (hall _ _ hread)

end SortingOffice.Header
