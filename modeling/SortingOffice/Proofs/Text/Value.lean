import Mathlib.Data.List.DropRight
import Mathlib.Data.List.TakeWhile
import SortingOffice.Text.Labelled
import SortingOffice.Proofs.Text.Search

/-!
# Values behind labels

A value is the first line behind its label that is not blank. Mostly that is the line of the label,
but a label with nothing behind it takes the next line for its value.

* `exists_eq_trim`: a text is its trimmed part with blanks around it.
* `Trimmed`, `IsValue`: texts without blanks around them, and those that have one line only.
* **`leadingValue_append_newline`**: the value at the start of a text of several lines.
* **`leadingValue_eq_trim_firstFilled`**: the same with all lines at once.
* **`valueAfter_append_line`**, `valueAfter_self`: the value behind a label in a text of several
  lines.
-/

namespace SortingOffice.Text

variable {cs front back : List Char} {c : Char}

/-! ## Trimming -/

theorem trimStart_append_of_blank (hfront : ∀ c ∈ front, isBlank c = true) (cs : List Char) :
    trimStart (front ++ cs) = trimStart cs :=
  List.dropWhile_append_of_pos hfront

theorem trimStart_eq_nil_iff : trimStart cs = [] ↔ ∀ c ∈ cs, isBlank c = true :=
  List.dropWhile_eq_nil_iff

theorem isBlank_of_trimStart_eq_cons {rest : List Char} (h : trimStart cs = c :: rest) :
    isBlank c = false := by
  have hhead := List.head?_dropWhile_not isBlank cs
  rw [trimStart] at h
  rw [h] at hhead
  exact hhead

theorem trimStart_append_of_ne_nil (h : trimStart cs ≠ []) (back : List Char) :
    trimStart (cs ++ back) = trimStart cs ++ back := by
  have hempty : ¬ (cs.dropWhile isBlank).isEmpty = true := fun h' => h (List.isEmpty_iff.1 h')
  rw [trimStart, List.dropWhile_append, if_neg hempty, trimStart]

theorem trimEnd_append_of_blank (hback : ∀ c ∈ back, isBlank c = true) (cs : List Char) :
    trimEnd (cs ++ back) = trimEnd cs := by
  have hreverse : ∀ c ∈ back.reverse, isBlank c = true := fun c hc =>
    hback c (List.mem_reverse.1 hc)
  rw [trimEnd, List.reverse_append, List.dropWhile_append_of_pos hreverse, trimEnd]

theorem isBlank_of_mem_space : ∀ c ∈ [' '], isBlank c = true := List.forall_mem_singleton.2 rfl

theorem trim_append_left (hfront : ∀ c ∈ front, isBlank c = true) (cs : List Char) :
    trim (front ++ cs) = trim cs := by
  rw [trim, trimStart_append_of_blank hfront, trim]

theorem trim_append_right (hback : ∀ c ∈ back, isBlank c = true) (cs : List Char) :
    trim (cs ++ back) = trim cs := by
  by_cases h : trimStart cs = []
  · have hall : ∀ c ∈ cs, isBlank c = true := trimStart_eq_nil_iff.1 h
    have hnil : trimStart (cs ++ back) = [] := by
      rw [trimStart_append_of_blank hall, trimStart_eq_nil_iff]
      exact hback
    rw [trim, hnil, trim, h]
  · rw [trim, trimStart_append_of_ne_nil h, trimEnd_append_of_blank hback, trim]

/-- **A text is its trimmed part with blanks around it.** -/
theorem exists_eq_trim (cs : List Char) : ∃ front back, (∀ c ∈ front, isBlank c = true) ∧
    (∀ c ∈ back, isBlank c = true) ∧ cs = front ++ trim cs ++ back := by
  refine ⟨cs.takeWhile isBlank, (trimStart cs).rtakeWhile isBlank,
    fun c hc => List.mem_takeWhile_imp hc, fun c hc => List.mem_rtakeWhile_imp hc, ?_⟩
  have hend : trim cs ++ (trimStart cs).rtakeWhile isBlank = trimStart cs :=
    List.rdropWhile_append_rtakeWhile
  rw [List.append_assoc, hend]
  exact List.takeWhile_append_dropWhile.symm

theorem trim_infix_self (cs : List Char) : trim cs <:+: cs := by
  obtain ⟨front, back, -, -, h⟩ := exists_eq_trim cs
  exact ⟨front, back, h.symm⟩

theorem trim_eq_nil_iff : trim cs = [] ↔ ∀ c ∈ cs, isBlank c = true := by
  constructor
  · intro h c hc
    obtain ⟨front, back, hfront, hback, hcs⟩ := exists_eq_trim cs
    rw [h, List.append_nil] at hcs
    rw [hcs] at hc
    exact (List.mem_append.1 hc).elim (hfront c) (hback c)
  · intro h
    rw [trim, trimStart_eq_nil_iff.2 h, trimEnd_nil]

/-- There are no blanks around a text. -/
def Trimmed (cs : List Char) : Prop := trim cs = cs

instance (cs : List Char) : Decidable (Trimmed cs) := inferInstanceAs <| Decidable (trim cs = cs)

theorem trimmed_trim (cs : List Char) : Trimmed (trim cs) := by
  obtain ⟨front, back, hfront, hback, h⟩ := exists_eq_trim cs
  have htrim : trim (front ++ trim cs ++ back) = trim (trim cs) := by
    rw [trim_append_right hback, trim_append_left hfront]
  rw [← h] at htrim
  exact htrim.symm

theorem trim_trimStart (cs : List Char) : trim (trimStart cs) = trim cs := by
  rw [trim, trimStart, trimStart, List.dropWhile_idempotent, trim, trimStart]

/-- A text is trimmed if there is a character other than a blank at both ends. -/
theorem trimmed_of_ends (hhead : ∀ c ∈ cs.head?, isBlank c = false)
    (hlast : ∀ c ∈ cs.getLast?, isBlank c = false) : Trimmed cs := by
  have hdrop {ds : List Char} (h : ∀ c ∈ ds.head?, isBlank c = false) :
      ds.dropWhile isBlank = ds := by
    cases ds with
    | nil => rfl
    | cons d ds => rw [List.dropWhile_cons_of_neg (by simp [h d rfl])]
  have hstart : trimStart cs = cs := hdrop hhead
  have hend : cs.reverse.dropWhile isBlank = cs.reverse := by
    apply hdrop
    rwa [List.head?_reverse]
  rw [Trimmed, trim, hstart, trimEnd, hend, List.reverse_reverse]

theorem trimmed_of_forall (h : ∀ c ∈ cs, isBlank c = false) : Trimmed cs :=
  trimmed_of_ends (fun c hc => h c (List.mem_of_mem_head? hc))
    fun c hc => h c (List.mem_of_getLast? hc)

theorem Trimmed.head (h : Trimmed cs) : ∀ c ∈ cs.head?, isBlank c = false := by
  intro c hc
  obtain ⟨rest, rfl⟩ := List.head?_eq_some_iff.1 hc
  by_contra hblank
  have hfront : ∀ d ∈ [c], isBlank d = true := by simpa using hblank
  have htrim := trim_append_left hfront rest
  rw [List.singleton_append, h] at htrim
  have hlen := (trim_infix_self rest).length_le
  rw [← htrim, List.length_cons] at hlen
  omega

theorem Trimmed.last (h : Trimmed cs) : ∀ c ∈ cs.getLast?, isBlank c = false := by
  intro c hc
  obtain ⟨init, rfl⟩ := List.getLast?_eq_some_iff.1 hc
  by_contra hblank
  have hback : ∀ d ∈ [c], isBlank d = true := by simpa using hblank
  have htrim := trim_append_right hback init
  rw [h] at htrim
  have hlen := (trim_infix_self init).length_le
  rw [← htrim, List.length_append, List.length_singleton] at hlen
  omega

/-- Blanks in the middle do not matter. -/
theorem Trimmed.append {cs ds : List Char} (hcs : Trimmed cs) (hds : Trimmed ds) (hcs' : cs ≠ [])
    (hds' : ds ≠ []) (mid : List Char) : Trimmed (cs ++ mid ++ ds) := by
  apply trimmed_of_ends
  · rw [List.append_assoc, List.head?_append_of_ne_nil _ hcs']
    exact hcs.head
  · rw [List.getLast?_append_of_ne_nil _ hds']
    exact hds.last

theorem Trimmed.append_text {s t : String} (hs : Trimmed s.toList) (ht : Trimmed t.toList)
    (hs' : s ≠ "") (ht' : t ≠ "") (mid : String) : Trimmed (s ++ mid ++ t).toList := by
  rw [String.toList_append, String.toList_append]
  exact hs.append ht (mt String.toList_eq_nil_iff.1 hs') (mt String.toList_eq_nil_iff.1 ht')
    mid.toList

/-! ## The value at the start of a text -/

theorem newline_notMem_leadingValue (cs : List Char) : '\n' ∉ leadingValue cs := by
  intro h
  have hline := (trim_infix_self _).subset h
  exact absurd (List.mem_takeWhile_imp hline) (by decide)

theorem trimmed_leadingValue (cs : List Char) : Trimmed (leadingValue cs) := trimmed_trim _

theorem leadingValue_of_notMem (h : '\n' ∉ cs) : leadingValue cs = trim cs := by
  have hline : (trimStart cs).takeWhile (· != '\n') = trimStart cs := by
    rw [List.takeWhile_eq_self_iff]
    intro c hc
    have hmem : c ∈ cs := List.dropWhile_subset _ hc
    exact bne_iff_ne.2 fun hnl => h (hnl ▸ hmem)
  rw [leadingValue, hline, trim_trimStart]

theorem leadingValue_eq_nil_iff : leadingValue cs = [] ↔ ∀ c ∈ cs, isBlank c = true := by
  constructor
  · intro h
    rw [leadingValue, trim_eq_nil_iff] at h
    rw [← trimStart_eq_nil_iff]
    cases hstart : trimStart cs with
    | nil => rfl
    | cons c rest =>
      -- the line that is reached starts with a character that is no blank
      have hc : isBlank c = false := isBlank_of_trimStart_eq_cons hstart
      have hnl : ¬ c = '\n' := by
        rintro rfl
        exact absurd hc (by decide)
      have hmem : c ∈ (trimStart cs).takeWhile (· != '\n') := by
        rw [hstart, List.takeWhile_cons_of_pos (by simpa using hnl)]
        exact List.mem_cons_self
      rw [h c hmem] at hc
      cases hc
  · intro h
    rw [leadingValue, trimStart_eq_nil_iff.2 h, List.takeWhile_nil, trim_nil]

/-- **The value at the start of a text is that of its first line that is not blank.** -/
theorem leadingValue_append_newline (front back : List Char) :
    leadingValue (front ++ '\n' :: back) =
      if leadingValue front = [] then leadingValue back else leadingValue front := by
  split_ifs with h
  · rw [leadingValue_eq_nil_iff] at h
    have hblank : ∀ c ∈ front ++ ['\n'], isBlank c = true := by
      intro c hc
      rcases List.mem_append.1 hc with hc | hc
      · exact h c hc
      · rw [List.mem_singleton.1 hc]
        decide
    have hstart : trimStart (front ++ '\n' :: back) = trimStart back := by
      rw [List.append_cons, trimStart_append_of_blank hblank]
    rw [leadingValue, hstart, leadingValue]
  · rw [leadingValue_eq_nil_iff, ← trimStart_eq_nil_iff] at h
    have hline : (trimStart front ++ '\n' :: back).takeWhile (· != '\n') =
        (trimStart front).takeWhile (· != '\n') := by
      rw [List.takeWhile_append, List.takeWhile_cons_of_neg (by decide), List.append_nil]
      split_ifs with hlen
      · exact ((List.takeWhile_prefix _).eq_of_length hlen).symm
      · rfl
    rw [leadingValue, trimStart_append_of_ne_nil h, hline, leadingValue]

theorem leadingValue_append_of_blank (hback : ∀ c ∈ back, isBlank c = true) (cs : List Char) :
    leadingValue (cs ++ back) = leadingValue cs := by
  by_cases h : trimStart cs = []
  · have hall : ∀ c ∈ cs, isBlank c = true := trimStart_eq_nil_iff.1 h
    rw [leadingValue, leadingValue, trimStart_append_of_blank hall, trimStart_eq_nil_iff.2 hback, h]
  · rw [leadingValue, leadingValue, trimStart_append_of_ne_nil h, List.takeWhile_append]
    split_ifs with hlen
    · -- the line that is reached goes on to the end of the text, and with it the blanks
      have hline : (trimStart cs).takeWhile (· != '\n') = trimStart cs :=
        (List.takeWhile_prefix _).eq_of_length hlen
      rw [hline, trim_append_right]
      exact fun c hc => hback c ((List.takeWhile_prefix _).subset hc)
    · rfl

/-- The first line of a text that is not blank, empty if there is none. -/
def firstFilled (cs : List Char) : List Char :=
  ((cs.splitOn '\n').find? fun line => !line.all isBlank).getD []

theorem leadingValue_intercalate {lines : List (List Char)} (hlines : ∀ l ∈ lines, '\n' ∉ l)
    (hne : lines ≠ []) : leadingValue (['\n'].intercalate lines) =
      trim ((lines.find? fun line => !line.all isBlank).getD []) := by
  induction lines with
  | nil => exact absurd rfl hne
  | cons line lines ih =>
    obtain ⟨hline, hrest⟩ := List.forall_mem_cons.1 hlines
    have hblank : leadingValue line = [] ↔ line.all isBlank = true := by
      rw [leadingValue_eq_nil_iff, List.all_eq_true]
    rw [List.find?_cons]
    cases lines with
    | nil =>
      rw [List.intercalate_singleton, leadingValue_of_notMem hline]
      cases hall : line.all isBlank with
      | true => simpa using trim_eq_nil_iff.2 (List.all_eq_true.1 hall)
      | false => rfl
    | cons line' lines =>
      rw [List.intercalate_cons_cons, List.append_assoc, List.singleton_append,
        leadingValue_append_newline, ih hrest (List.cons_ne_nil _ _)]
      cases hall : line.all isBlank with
      | true => rw [if_pos (hblank.2 hall)]; rfl
      | false =>
        rw [if_neg (mt hblank.1 (by simp [hall])), leadingValue_of_notMem hline]
        rfl

/-- **The value at the start of a text is its first line that is not blank, trimmed.** -/
theorem leadingValue_eq_trim_firstFilled (cs : List Char) :
    leadingValue cs = trim (firstFilled cs) := by
  have hlines := leadingValue_intercalate (fun l hl => notMem_of_mem_splitOn hl)
    (List.splitOn_ne_nil '\n' cs)
  rwa [List.intercalate_splitOn] at hlines

/-- If the first line is not blank, it is the one. -/
theorem firstFilled_of_not_blank (h : ∃ c ∈ cs.takeWhile (· != '\n'), isBlank c = false) :
    firstFilled cs = cs.takeWhile (· != '\n') := by
  obtain ⟨rest, hrest⟩ := exists_splitOn_eq_takeWhile '\n' cs
  rw [firstFilled, hrest, List.find?_cons_of_pos (by simpa using h)]
  rfl

/-! ## The value behind a label -/

/-- What can be the value behind a label: a line without blanks around it. -/
def IsValue (s : String) : Prop := Trimmed s.toList ∧ '\n' ∉ s.toList

instance (s : String) : Decidable (IsValue s) :=
  inferInstanceAs <| Decidable (Trimmed s.toList ∧ '\n' ∉ s.toList)

theorem IsValue.leadingValue {s : String} (h : IsValue s) : leadingValue s.toList = s.toList := by
  rw [leadingValue_of_notMem h.2]
  exact h.1

theorem isValue_ofList_leadingValue (cs : List Char) :
    IsValue (String.ofList (Text.leadingValue cs)) := by
  rw [IsValue, String.toList_ofList]
  exact ⟨trimmed_leadingValue cs, newline_notMem_leadingValue cs⟩

variable {label front : String}

theorem toList_append_newline (front own : String) :
    (front ++ "\n" ++ own).toList = front.toList ++ '\n' :: own.toList := by
  simp

theorem isValue_valueAfter (label text : String) : IsValue (valueAfter label text) := by
  rw [valueAfter]
  cases after? label.toList text.toList with
  | none => exact ⟨rfl, List.not_mem_nil⟩
  | some rest => exact isValue_ofList_leadingValue rest

theorem valueAfter_of_not_contains {text : String} (h : contains label text = false) :
    valueAfter label text = "" := by
  rw [contains_eq_false_iff, ← after?_eq_none_iff] at h
  rw [valueAfter, h]

/-- The value behind a label at the start of a text. -/
theorem valueAfter_self (label rest : String) :
    valueAfter label (label ++ rest) = String.ofList (leadingValue rest.toList) := by
  rw [valueAfter, String.toList_append, after?_key_append]

/-- **The value behind a label in a text of several lines.** A label in the first lines has its
value there. Only if they end with the label, the value is that of the next lines. -/
theorem valueAfter_append_line (hlabel : '\n' ∉ label.toList) (front own : String) :
    valueAfter label (front ++ "\n" ++ own) =
      if contains label front = true then
        if valueAfter label front = "" then String.ofList (leadingValue own.toList)
        else valueAfter label front
      else valueAfter label own := by
  rw [valueAfter, toList_append_newline]
  cases hafter : after? label.toList front.toList with
  | none =>
    have hfront : contains label front = false := by
      rwa [contains_eq_false_iff, ← after?_eq_none_iff]
    rw [after?_append_cons hlabel hafter, hfront, if_neg Bool.false_ne_true, valueAfter]
  | some rest =>
    have hfront : contains label front = true := contains_iff.2 (exists_after?_iff.1 ⟨rest, hafter⟩)
    rw [after?_append_of_some hafter, hfront, if_pos rfl, valueAfter, hafter]
    show String.ofList (leadingValue (rest ++ '\n' :: own.toList)) =
      if String.ofList (leadingValue rest) = "" then String.ofList (leadingValue own.toList)
      else String.ofList (leadingValue rest)
    rw [leadingValue_append_newline]
    simp only [String.ofList_eq_empty_iff]
    split_ifs <;> rfl

end SortingOffice.Text
