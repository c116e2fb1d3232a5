import SortingOffice.Proofs.Text.Places
import SortingOffice.Proofs.Text.Value

/-!
# The line that gives a value

Reading a value skips blanks, line breaks among them, cuts at the next line feed, and trims. What
comes out can be told line by line: it is what stands on the first line behind the label that is not
blank. Only line feeds end a line, so other line separators are blanks within it.

* `IsContent`, `isContent_iff`: what stands on a line, without the blanks around it.
* `firstFilled_of_blank`, `firstFilled_of_line`: the first line that is not blank.
* `Gives`: the value that a text gives to a label, line by line.
* **`valueAfter_eq_iff`**: that is the value behind the label.
-/

namespace SortingOffice.Text

variable {cs line value : List Char}

/-! ## Lines -/

/-- What stands on a line. There are only blanks around it, and none at its ends. -/
structure IsContent (line value : List Char) : Prop where
  between : ∃ front back, (∀ c ∈ front, isBlank c = true) ∧ (∀ c ∈ back, isBlank c = true) ∧
    line = front ++ value ++ back
  head : ∀ c ∈ value.head?, isBlank c = false
  last : ∀ c ∈ value.getLast?, isBlank c = false

theorem isContent_iff : IsContent line value ↔ value = trim line := by
  constructor
  · rintro ⟨⟨front, back, hfront, hback, rfl⟩, hhead, hlast⟩
    rw [trim_append_right hback, trim_append_left hfront]
    exact (trimmed_of_ends hhead hlast).symm
  · rintro rfl
    exact ⟨exists_eq_trim line, (trimmed_trim line).head, (trimmed_trim line).last⟩

theorem firstFilled_of_blank (h : ∀ line ∈ cs.splitOn '\n', ∀ c ∈ line, isBlank c = true) :
    firstFilled cs = [] := by
  have hnone : (cs.splitOn '\n').find? (fun line => !line.all isBlank) = none := by
    rw [List.find?_eq_none]
    intro line hline
    simpa using h line hline
  rw [firstFilled, hnone]
  rfl

theorem firstFilled_of_line {before after : List (List Char)}
    (hlines : cs.splitOn '\n' = before ++ line :: after)
    (hbefore : ∀ l ∈ before, ∀ c ∈ l, isBlank c = true) (hline : ∃ c ∈ line, isBlank c = false) :
    firstFilled cs = line := by
  have hfind : (cs.splitOn '\n').find? (fun line => !line.all isBlank) = some line := by
    rw [List.find?_eq_some_iff_append]
    exact ⟨by simpa using hline, before, after, hlines, by simpa using hbefore⟩
  rw [firstFilled, hfind]
  rfl

/-! ## The value behind a label -/

/-- The value that a text gives to a label. If the label does not stand in the text, the value is
empty. Otherwise what follows its leftmost place is cut into lines. If all of them are blank, the
value is empty, and else it is what stands on the first one that is not. -/
inductive Gives (label text : List Char) : List Char → Prop
  | absent (hlabel : ∀ i, ¬ StandsAt label text i) : Gives label text []
  | blank {front rest : List Char} (htext : text = front ++ label ++ rest)
      (hfirst : IsLeast {i | StandsAt label text i} front.length)
      (hblank : ∀ line ∈ rest.splitOn '\n', ∀ c ∈ line, isBlank c = true) : Gives label text []
  | filled {front rest line value : List Char} {before after : List (List Char)}
      (htext : text = front ++ label ++ rest)
      (hfirst : IsLeast {i | StandsAt label text i} front.length)
      (hlines : rest.splitOn '\n' = before ++ line :: after)
      (hbefore : ∀ l ∈ before, ∀ c ∈ l, isBlank c = true)
      (hline : ∃ c ∈ line, isBlank c = false) (hvalue : IsContent line value) :
      Gives label text value

theorem valueAfter_of_leftmost {label text : String} {front rest : List Char}
    (htext : text.toList = front ++ label.toList ++ rest)
    (hfirst : IsLeast {i | StandsAt label.toList text.toList i} front.length) :
    valueAfter label text = String.ofList (trim (firstFilled rest)) := by
  rw [valueAfter, after?_eq_some_iff.2 ⟨front, htext, hfirst⟩, ← leadingValue_eq_trim_firstFilled]

/-- A text gives a value to every label. -/
theorem gives_valueAfter (label text : String) :
    Gives label.toList text.toList (valueAfter label text).toList := by
  cases hafter : after? label.toList text.toList with
  | none =>
    rw [valueAfter, hafter]
    exact .absent fun i hi => after?_eq_none_iff.1 hafter (exists_standsAt_iff.1 ⟨i, hi⟩)
  | some rest =>
    obtain ⟨front, htext, hfirst⟩ := after?_eq_some_iff.1 hafter
    rw [valueAfter_of_leftmost htext hfirst, String.toList_ofList]
    cases hfind : (rest.splitOn '\n').find? (fun line => !line.all isBlank) with
    | none =>
      have hblank : ∀ line ∈ rest.splitOn '\n', ∀ c ∈ line, isBlank c = true := by
        simpa using hfind
      rw [firstFilled_of_blank hblank]
      exact .blank htext hfirst hblank
    | some line =>
      obtain ⟨hline, before, after, hlines, hbefore⟩ := List.find?_eq_some_iff_append.1 hfind
      have hbefore' : ∀ l ∈ before, ∀ c ∈ l, isBlank c = true := by simpa using hbefore
      have hline' : ∃ c ∈ line, isBlank c = false := by simpa using hline
      rw [firstFilled_of_line hlines hbefore' hline']
      exact .filled htext hfirst hlines hbefore' hline' (isContent_iff.2 rfl)

/-- **The value behind a label, line by line.** It is what stands on the first line that is not
blank behind the leftmost place of the label, and empty if there is no such line or no such place.
So it is always trimmed and in one line. -/
theorem valueAfter_eq_iff (label text : String) :
    (∀ value : String, valueAfter label text = value ↔
      Gives label.toList text.toList value.toList) ∧ IsValue (valueAfter label text) := by
  refine ⟨fun value => ⟨?_, ?_⟩, isValue_valueAfter label text⟩
  · rintro rfl
    exact gives_valueAfter label text
  · generalize hchars : value.toList = chars
    obtain rfl : value = String.ofList chars := by rw [← hchars, String.ofList_toList]
    intro hgives
    cases hgives with
    | absent hlabel =>
      have hcontains : contains label text = false := by
        rw [contains_eq_false_iff, ← exists_standsAt_iff, not_exists]
        exact hlabel
      rw [valueAfter_of_not_contains hcontains, String.ofList_nil]
    | blank htext hfirst hblank =>
      rw [valueAfter_of_leftmost htext hfirst, firstFilled_of_blank hblank, trim_nil]
    | filled htext hfirst hlines hbefore hline hvalue =>
      rw [valueAfter_of_leftmost htext hfirst, firstFilled_of_line hlines hbefore hline,
        isContent_iff.1 hvalue]

/-- Neither a carriage return nor a line separator ends a line. -/
example : valueAfter "to:" "to:\r\n\u2028 ann\u2028bob\r\nlater" = "ann\u2028bob" := by
  decide +kernel

end SortingOffice.Text
