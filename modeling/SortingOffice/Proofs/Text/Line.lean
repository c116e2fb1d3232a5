import SortingOffice.Proofs.Text.Value

/-!
# Lines with a label

A written line has a label in front, a space, and a value. A label has neither blanks nor commas, so
it stands in a text of lines only where it stands in one of the labels or values.

* `IsLabel`: what can be a label.
* `contains_line`, `contains_lines`, `occurrences_append_line`: labels in a text of lines.
* `leadingValue_line`, `leadingValue_of_lines`: the value at the start of a text of lines, behind
  its label or with it.
* **`valueAfter_lines`**: the value behind the label of a line.
-/

namespace SortingOffice.Text

/-- What can be a label: a text without blanks and commas. -/
def IsLabel (s : String) : Prop := s ≠ "" ∧ ∀ c ∈ s.toList, isBlank c = false ∧ c ≠ ','

instance (s : String) : Decidable (IsLabel s) :=
  decidable_of_iff (s ≠ "" ∧ s.toList.all (fun c => !isBlank c && c != ',') = true) <| by
    simp [IsLabel]

variable {key label value front rest : String} {c : Char}

/-! ## Labels -/

theorem IsLabel.toList_ne_nil (h : IsLabel label) : label.toList ≠ [] :=
  mt String.toList_eq_nil_iff.1 h.1

theorem IsLabel.notMem_of_blank (h : IsLabel label) (hc : isBlank c = true) : c ∉ label.toList := by
  intro hmem
  rw [(h.2 c hmem).1] at hc
  cases hc

theorem IsLabel.comma_notMem (h : IsLabel label) : ',' ∉ label.toList := fun hmem =>
  (h.2 _ hmem).2 rfl

theorem IsLabel.newline_notMem (h : IsLabel label) : '\n' ∉ label.toList :=
  h.notMem_of_blank (by decide)

theorem IsLabel.isValue (h : IsLabel label) : IsValue label :=
  ⟨trimmed_of_forall fun c hc => (h.2 c hc).1, h.newline_notMem⟩

/-! ## Labels in lines -/

theorem contains_line (hkey : IsLabel key) (label value : String) :
    contains key (label ++ " " ++ value) = true ↔
      contains key label = true ∨ contains key value = true := by
  have hspace : ' ' ∉ key.toList := hkey.notMem_of_blank (by decide)
  have hline : (label ++ " " ++ value).toList = label.toList ++ ' ' :: value.toList := by simp
  rw [contains_iff, contains_iff, contains_iff, hline,
    infix_append_cons_iff hspace hkey.toList_ne_nil]

theorem contains_lines (hkey : IsLabel key) (front own : String) :
    contains key (front ++ "\n" ++ own) = true ↔
      contains key front = true ∨ contains key own = true := by
  rw [contains_iff, contains_iff, contains_iff, toList_append_newline,
    infix_append_cons_iff hkey.newline_notMem hkey.toList_ne_nil]

theorem occurrences_append_line (hlabel : IsLabel label) (line rest : String) :
    occurrences label (line ++ "\n" ++ rest) = occurrences label line + occurrences label rest := by
  rw [occurrences, toList_append_newline, countFrom_append_cons hlabel.newline_notMem
    hlabel.toList_ne_nil (Nat.zero_le _), occurrences, occurrences]

/-! ## Values of lines -/

theorem trim_line (hlabel : IsLabel label) (hvalue : IsValue value) :
    trim (label ++ " " ++ value).toList =
      if value = "" then label.toList else (label ++ " " ++ value).toList := by
  split_ifs with h
  · have hline : (label ++ " " ++ value).toList = label.toList ++ [' '] := by simp [h]
    rw [hline, trim_append_right isBlank_of_mem_space]
    exact hlabel.isValue.1
  · exact hlabel.isValue.1.append_text hvalue.1 hlabel.1 h " "

theorem trim_line_ne_nil (hlabel : IsLabel label) (hvalue : IsValue value) :
    trim (label ++ " " ++ value).toList ≠ [] := by
  rw [trim_line hlabel hvalue]
  split_ifs <;> simp [hlabel.1]

theorem trim_line_ne (hlabel : IsLabel label) (hvalue : IsValue value) :
    trim (label ++ " " ++ value).toList ≠ value.toList := by
  rw [trim_line hlabel hvalue]
  split_ifs with h
  · rw [h]
    exact hlabel.toList_ne_nil
  · -- the line is longer than the value in it
    intro heq
    have hlen := congrArg List.length heq
    simp at hlen
    omega

/-- The value of a line that has the label in front. -/
theorem leadingValue_line (hvalue : IsValue value) (rest : String) :
    leadingValue (" " ++ value ++ "\n" ++ rest).toList =
      if value = "" then leadingValue rest.toList else value.toList := by
  have hline : leadingValue (" " ++ value).toList = value.toList := by
    have htext : (" " ++ value).toList = [' '] ++ value.toList := by simp
    rw [htext, leadingValue, trimStart_append_of_blank isBlank_of_mem_space, ← leadingValue,
      hvalue.leadingValue]
  rw [toList_append_newline, leadingValue_append_newline, hline]
  simp only [String.toList_eq_nil_iff]

theorem leadingValue_of_line (hlabel : IsLabel label) (hvalue : IsValue value) :
    leadingValue (label ++ " " ++ value).toList = trim (label ++ " " ++ value).toList :=
  leadingValue_of_notMem (by simp [hlabel.newline_notMem, hvalue.2])

/-- A line is not empty, so the value at its start is the line. -/
theorem leadingValue_of_lines (hlabel : IsLabel label) (hvalue : IsValue value) (rest : String) :
    leadingValue (label ++ " " ++ value ++ "\n" ++ rest).toList =
      trim (label ++ " " ++ value).toList := by
  rw [toList_append_newline, leadingValue_append_newline, leadingValue_of_line hlabel hvalue,
    if_neg (trim_line_ne_nil hlabel hvalue)]

/-- **The value behind the label of a line.** If the label is not in the lines before, it is the
value of the line, or that of the next lines if the line has none. -/
theorem valueAfter_lines (hlabel : IsLabel label) (hvalue : IsValue value) (front rest : String) :
    valueAfter label (front ++ "\n" ++ (label ++ " " ++ value ++ "\n" ++ rest)) =
      if contains label front = true then
        if valueAfter label front = "" then String.ofList (trim (label ++ " " ++ value).toList)
        else valueAfter label front
      else if value = "" then String.ofList (leadingValue rest.toList) else value := by
  have hown : label ++ " " ++ value ++ "\n" ++ rest = label ++ (" " ++ value ++ "\n" ++ rest) := by
    simp only [String.append_assoc]
  rw [valueAfter_append_line hlabel.newline_notMem, leadingValue_of_lines hlabel hvalue, hown,
    valueAfter_self, leadingValue_line hvalue]
  by_cases hempty : value = "" <;> simp [hempty]

end SortingOffice.Text
