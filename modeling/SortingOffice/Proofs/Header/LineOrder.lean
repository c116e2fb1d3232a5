import SortingOffice.Header
import SortingOffice.Proofs.Text.Line
import SortingOffice.Proofs.Text.Places

/-!
# Headers with their lines in another order

A header is read by looking for its labels in the whole text. Still it depends on the lines only,
not on their order, as long as no label stands in two places or at the end of its line: then each
label has one line, and its value is on that line.

* `lines`, `ofLines`: a text and its lines.
* `valuesOf`, **`valueAfter_ofLines`**: the values that a label has on the lines of a text.
* `Orderly`, `orderly_iff`: texts where each label has at most one place and a value behind it.
* `Rearranged`, `Rearranged.valuesOf_perm`: other orders of lines, with lines put in or left out.
* **`Orderly.read_of_rearranged`**: what is read does not depend on the order of the lines.
-/

namespace SortingOffice

open Text

/-! ## Lines -/

namespace Text

variable {label line text : String} {ls : List String}

/-- The lines of a text, without the line feeds between them. -/
def lines (text : String) : List String := (text.toList.splitOn '\n').map String.ofList

/-- The text of some lines, with a line feed between each two of them. -/
def ofLines (ls : List String) : String := "\n".intercalate ls

theorem ofLines_lines (text : String) : ofLines (lines text) = text := by
  have hpieces : (lines text).map String.toList = text.toList.splitOn '\n' := by
    rw [lines, List.map_map]
    exact (List.map_congr_left fun _ _ => String.toList_ofList).trans (List.map_id _)
  rw [← String.toList_inj, ofLines, String.toList_intercalate, hpieces]
  exact List.intercalate_splitOn '\n'

theorem ofLines_singleton (line : String) : ofLines [line] = line := by
  simp [ofLines]

theorem ofLines_cons_cons (line next : String) (ls : List String) :
    ofLines (line :: next :: ls) = line ++ "\n" ++ ofLines (next :: ls) := by
  rw [← String.toList_inj]
  simp [ofLines]

theorem occurrences_ofLines_nil (hlabel : IsLabel label) : occurrences label (ofLines []) = 0 :=
  countFrom_eq_zero (mt List.infix_nil.1 hlabel.toList_ne_nil)

/-- The places of a label in a text of lines are those on its lines. -/
theorem occurrences_ofLines_cons (hlabel : IsLabel label) (line : String) (ls : List String) :
    occurrences label (ofLines (line :: ls)) =
      occurrences label line + occurrences label (ofLines ls) := by
  cases ls with
  | nil => rw [ofLines_singleton, occurrences_ofLines_nil hlabel, Nat.add_zero]
  | cons next ls => rw [ofLines_cons_cons, occurrences_append_line hlabel]

theorem occurrences_le_of_mem (hlabel : IsLabel label) (h : line ∈ ls) :
    occurrences label line ≤ occurrences label (ofLines ls) := by
  induction ls with
  | nil => cases h
  | cons first ls ih =>
    rw [occurrences_ofLines_cons hlabel]
    rcases List.mem_cons.1 h with rfl | h
    · exact Nat.le_add_right _ _
    · exact (ih h).trans (Nat.le_add_left _ _)

/-- The values that stand behind the leftmost places of a label on some lines, in the order of the
lines. -/
def valuesOf (label : String) (ls : List String) : List String :=
  (ls.filter (contains label)).map (valueAfter label)

theorem valuesOf_cons (label line : String) (ls : List String) : valuesOf label (line :: ls) =
    if contains label line = true then valueAfter label line :: valuesOf label ls
    else valuesOf label ls := by
  rw [valuesOf, List.filter_cons]
  split_ifs <;> rfl

theorem length_valuesOf_le (hlabel : IsLabel label) (ls : List String) :
    (valuesOf label ls).length ≤ occurrences label (ofLines ls) := by
  induction ls with
  | nil => exact Nat.zero_le _
  | cons line ls ih =>
    rw [valuesOf_cons, occurrences_ofLines_cons hlabel]
    split_ifs with h
    · have hpos : occurrences label line ≠ 0 := countFrom_ne_zero (contains_iff.1 h)
      rw [List.length_cons]
      omega
    · omega

theorem empty_notMem_valuesOf_iff : "" ∉ valuesOf label ls ↔
    ∀ line ∈ ls, contains label line = true → valueAfter label line ≠ "" := by
  simp [valuesOf]

/-- **The value behind a label in a text of lines**, if no line ends with the label: that of the
first line with the label. -/
theorem valueAfter_ofLines (hlabel : '\n' ∉ label.toList) (hvalues : "" ∉ valuesOf label ls) :
    valueAfter label (ofLines ls) = (valuesOf label ls).headD "" := by
  induction ls with
  | nil =>
    cases hempty : contains label (ofLines []) with
    | false => exact valueAfter_of_not_contains hempty
    | true =>
      have hnil : label = "" := by
        rw [contains_iff] at hempty
        exact String.toList_eq_nil_iff.1 (List.infix_nil.1 hempty)
      rw [hnil]
      rfl
  | cons line ls ih =>
    rw [valuesOf_cons] at hvalues ⊢
    cases ls with
    | nil =>
      rw [ofLines_singleton]
      split_ifs with h
      · rfl
      · exact valueAfter_of_not_contains (Bool.not_eq_true _ ▸ h)
    | cons next ls =>
      rw [ofLines_cons_cons, valueAfter_append_line hlabel]
      split_ifs at hvalues ⊢ with h hempty
      · exact absurd (hempty ▸ List.mem_cons_self) hvalues
      · rfl
      · exact ih hvalues

/-- A label with one place on its line has a value there, if something else than blanks is behind
it. -/
theorem filled_iff (hlabel : IsLabel label) (hapart : Apart label.toList label.toList.tail)
    (honce : occurrences label line ≤ 1) :
    (∀ front back : String, line = front ++ label ++ back → isBlankText back = false) ↔
      (contains label line = true → valueAfter label line ≠ "") := by
  have hvalue {rest : List Char} (h : after? label.toList line.toList = some rest) :
      valueAfter label line ≠ "" ↔ isBlankText (.ofList rest) = false := by
    rw [valueAfter, h, isBlankText, String.toList_ofList, ← Bool.not_eq_true, List.all_eq_true,
      ← leadingValue_eq_nil_iff, ← String.ofList_eq_empty_iff]
  constructor
  · intro h hcontains
    obtain ⟨rest, hrest⟩ := exists_after?_iff.2 (contains_iff.1 hcontains)
    obtain ⟨front, hline, -⟩ := exists_leftmost hrest
    refine (hvalue hrest).2 (h (.ofList front) (.ofList rest) ?_)
    rw [← String.toList_inj, hline]
    simp
  · rintro h front back rfl
    have hplace := after?_of_occurrences_le_one hapart hlabel.toList_ne_nil honce
    have hback := (hvalue hplace).1 (h (contains_iff.2 (exists_after?_iff.1 ⟨_, hplace⟩)))
    rwa [String.ofList_toList] at hback

/-! ### Blanks at the end of a line -/

theorem contains_append_of_blank (hlabel : IsLabel label) {back : String}
    (hback : ∀ c ∈ back.toList, isBlank c = true) (line : String) :
    contains label (line ++ back) = contains label line := by
  rw [Bool.eq_iff_iff, contains_iff, contains_iff, String.toList_append,
    infix_append_right_iff (fun c hc => hlabel.notMem_of_blank (hback c hc)) hlabel.toList_ne_nil]

theorem valueAfter_append_of_blank (hlabel : IsLabel label) {back : String}
    (hback : ∀ c ∈ back.toList, isBlank c = true) (line : String) :
    valueAfter label (line ++ back) = valueAfter label line := by
  cases hafter : after? label.toList line.toList with
  | none =>
    have hline : contains label line = false := by
      rwa [contains_eq_false_iff, ← after?_eq_none_iff]
    rw [valueAfter_of_not_contains hline, valueAfter_of_not_contains]
    rwa [contains_append_of_blank hlabel hback]
  | some rest =>
    rw [valueAfter, String.toList_append, after?_append_of_some hafter, valueAfter, hafter]
    exact congrArg String.ofList (leadingValue_append_of_blank hback rest)

end Text

namespace Header

variable {label text : String} {ls ls' : List String}

/-! ## Orderly texts -/

/-- The labels of a header. -/
def labels : List String := [senderLabel, subjectLabel, recipientsLabel, receivedLabel]

theorem isLabel_of_mem_labels : ∀ label ∈ labels, IsLabel label := by decide

theorem apart_of_mem_labels : ∀ label ∈ labels, Apart label.toList label.toList.tail := by decide

/-- Each label of a header stands in the text at most once, and wherever one stands, its line goes
on with something else than blanks. -/
structure Orderly (text : String) : Prop where
  once : ∀ label ∈ labels, appearsAtMostOnce label text = true
  filled : ∀ label ∈ labels, ∀ line ∈ lines text, ∀ front back : String,
    line = front ++ label ++ back → isBlankText back = false

/-- **A text is orderly if no label stands there twice or has an empty value on its line.** -/
theorem orderly_iff : Orderly text ↔ ∀ label ∈ labels,
    appearsAtMostOnce label text = true ∧ "" ∉ valuesOf label (lines text) := by
  have hline {label line : String} (hlabel : label ∈ labels)
      (honce : appearsAtMostOnce label text = true) (hmem : line ∈ lines text) :
      (∀ front back : String, line = front ++ label ++ back → isBlankText back = false) ↔
        (contains label line = true → valueAfter label line ≠ "") := by
    refine filled_iff (isLabel_of_mem_labels label hlabel) (apart_of_mem_labels label hlabel) ?_
    have hle := occurrences_le_of_mem (isLabel_of_mem_labels label hlabel) hmem
    rw [ofLines_lines] at hle
    exact hle.trans (of_decide_eq_true honce)
  constructor
  · rintro ⟨honce, hfilled⟩ label hlabel
    refine ⟨honce label hlabel, empty_notMem_valuesOf_iff.2 fun line hmem => ?_⟩
    exact (hline hlabel (honce label hlabel) hmem).1 (hfilled label hlabel line hmem)
  · intro h
    refine ⟨fun label hlabel => (h label hlabel).1, fun label hlabel line hmem => ?_⟩
    obtain ⟨honce, hvalues⟩ := h label hlabel
    exact (hline hlabel honce hmem).2 (empty_notMem_valuesOf_iff.1 hvalues line hmem)

instance (text : String) : Decidable (Orderly text) := decidable_of_iff' _ orderly_iff

/-! ## Other orders -/

/-- Lines in another order. Lines without labels may be put in or left out, and a line may be ended
by a carriage return and a line feed. -/
inductive Rearranged : List String → List String → Prop
  | permute {ls ls' : List String} (h : ls.Perm ls') : Rearranged ls ls'
  | insert (front back : List String) {line : String} (hline : '\n' ∉ line.toList)
      (hlabels : ∀ label ∈ labels, contains label line = false) :
      Rearranged (front ++ back) (front ++ line :: back)
  | delete (front back : List String) {line : String}
      (hlabels : ∀ label ∈ labels, contains label line = false) :
      Rearranged (front ++ line :: back) (front ++ back)
  | returned (front back : List String) (line next : String) :
      Rearranged (front ++ line :: next :: back) (front ++ (line ++ "\r") :: next :: back)
  | trans {ls mid ls' : List String} (h : Rearranged ls mid) (h' : Rearranged mid ls') :
      Rearranged ls ls'

/-- **Other orders have the same values.** -/
theorem Rearranged.valuesOf_perm (h : Rearranged ls ls') (hlabel : label ∈ labels) :
    (valuesOf label ls).Perm (valuesOf label ls') := by
  have happend (front back : List String) :
      valuesOf label (front ++ back) = valuesOf label front ++ valuesOf label back := by
    rw [valuesOf, List.filter_append, List.map_append, valuesOf, valuesOf]
  induction h with
  | permute h => exact (h.filter _).map _
  | insert front back hline hlabels =>
    have hline' : ¬ contains label _ = true := Bool.eq_false_iff.1 (hlabels label hlabel)
    rw [happend, happend, valuesOf_cons, if_neg hline']
  | delete front back hlabels =>
    have hline' : ¬ contains label _ = true := Bool.eq_false_iff.1 (hlabels label hlabel)
    rw [happend, happend, valuesOf_cons, if_neg hline']
  | returned front back line next =>
    have hreturn : ∀ c ∈ "\r".toList, isBlank c = true := List.forall_mem_singleton.2 rfl
    have hlabel' := isLabel_of_mem_labels label hlabel
    rw [happend, happend, valuesOf_cons label line, valuesOf_cons label (line ++ "\r"),
      contains_append_of_blank hlabel' hreturn, valueAfter_append_of_blank hlabel' hreturn]
  | trans _ _ ih ih' => exact ih.trans ih'

/-- **A label of an orderly text keeps its value in every other order of the lines.** -/
theorem Orderly.valueAfter_ofLines (h : Orderly text) (hls : Rearranged (lines text) ls)
    (hlabel : label ∈ labels) : valueAfter label (ofLines ls) = valueAfter label text := by
  obtain ⟨honce, hvalues⟩ := orderly_iff.1 h label hlabel
  have hlabel' := isLabel_of_mem_labels label hlabel
  have hlength : (valuesOf label (lines text)).length ≤ 1 := by
    refine (length_valuesOf_le hlabel' _).trans ?_
    rw [ofLines_lines]
    exact of_decide_eq_true honce
  -- there is one value at most, so no order is left
  have hsame : valuesOf label ls = valuesOf label (lines text) := by
    have hperm := hls.valuesOf_perm hlabel
    rcases Nat.le_one_iff_eq_zero_or_eq_one.1 hlength with hzero | hone
    · rw [List.length_eq_zero_iff.1 hzero] at hperm ⊢
      exact hperm.nil_eq.symm
    · obtain ⟨value, hvalue⟩ := List.length_eq_one_iff.1 hone
      rw [hvalue] at hperm ⊢
      exact hperm.singleton_eq.symm
  calc valueAfter label (ofLines ls)
      = (valuesOf label ls).headD "" := by
        rw [Text.valueAfter_ofLines hlabel'.newline_notMem (hsame ▸ hvalues)]
    _ = (valuesOf label (lines text)).headD "" := by rw [hsame]
    _ = valueAfter label (ofLines (lines text)) :=
        (Text.valueAfter_ofLines hlabel'.newline_notMem hvalues).symm
    _ = valueAfter label text := by rw [ofLines_lines]

/-- **What is read from an orderly text does not depend on the order of its lines**: it is the same
header, or the same fault. -/
theorem Orderly.read_of_rearranged (h : Orderly text) (hls : Rearranged (lines text) ls) :
    read (ofLines ls) = read text := by
  have hvalue : ∀ label ∈ labels, valueAfter label (ofLines ls) = valueAfter label text :=
    fun label hlabel => h.valueAfter_ofLines hls hlabel
  rw [labels, List.forall_mem_cons, List.forall_mem_cons, List.forall_mem_cons,
    List.forall_mem_singleton] at hvalue
  obtain ⟨hsender, hsubject, hrecipients, hreceived⟩ := hvalue
  rw [read, read, hsender, hsubject, hrecipients, hreceived]

/-- A text with labels in the middle of its lines. -/
def memo : String :=
  "from the sender: a@x.com\nsubject: the recipients: b@x.com\nreceived: 2022-12-8 14:14"

/-- The same lines the other way round, with a line more and a carriage return. -/
def memoReversed : List String :=
  ["received: 2022-12-8 14:14\r", "x-unknown: ignored", "subject: the recipients: b@x.com",
    "from the sender: a@x.com"]

theorem memo_read_reversed : Orderly memo ∧ Rearranged (lines memo) memoReversed ∧
    read (ofLines memoReversed) = read memo := by
  have horderly : Orderly memo := by decide +kernel
  have hreversed : Rearranged (lines memo) ["received: 2022-12-8 14:14",
      "subject: the recipients: b@x.com", "from the sender: a@x.com"] :=
    .permute (by decide +kernel)
  have hline : '\n' ∉ "x-unknown: ignored".toList := by decide
  have hunknown := Rearranged.insert ["received: 2022-12-8 14:14"]
    ["subject: the recipients: b@x.com", "from the sender: a@x.com"] hline (by decide +kernel)
  have hreturned := Rearranged.returned [] ["subject: the recipients: b@x.com",
    "from the sender: a@x.com"] "received: 2022-12-8 14:14" "x-unknown: ignored"
  have hls : Rearranged (lines memo) memoReversed := hreversed.trans (hunknown.trans hreturned)
  exact ⟨horderly, hls, horderly.read_of_rearranged hls⟩

end Header

end SortingOffice
