import SortingOffice.Text.Words
import SortingOffice.Proofs.Text.Line

/-!
# Lines of words

* `mem_ofLine_iff`, `mem_ofLine_of_notMem`: the words of a line, and of one without commas.
* **`pieces_append_comma`**, `pieces_append_blank`, `ofLine_trim`: the pieces of two lines with a
  comma between them, and of a line with blanks around it.
* `IsWord`, **`isWord_of_mem_ofLine`**: what can be a word of a line.
* **`mem_ofLine_intercalate`**, **`ofLine_comma_eq_union`**: the words of lines put together with
  commas.
* `contains_toLine_iff`: where a label stands in a written line.
* **`read_back_iff`**: the sets of words that can be read back.
* `Clean`: the words of one line.
* `ofLine_label_ne`: words behind a text are not the words themselves.
-/

namespace SortingOffice.Words

open Text

variable {words : Words} {line w : String} {cs front back sep : List Char}

/-! ## Reading a line -/

theorem mem_ofLine_iff_pieces : w ∈ ofLine line ↔ w.toList ∈ pieces line.toList := by
  rw [ofLine, Std.ExtTreeSet.mem_ofList, List.contains_iff_mem, List.mem_map]
  constructor
  · rintro ⟨piece, hpiece, rfl⟩
    rwa [String.toList_ofList]
  · exact fun h => ⟨w.toList, h, String.ofList_toList⟩

theorem mem_ofLine_iff : w ∈ ofLine line ↔
    ∃ piece ∈ line.toList.splitOn ',', trim piece ≠ [] ∧ w = String.ofList (trim piece) := by
  rw [mem_ofLine_iff_pieces, pieces, List.mem_filter, List.mem_map]
  constructor
  · rintro ⟨⟨piece, hpiece, htrim⟩, hne⟩
    rw [← htrim] at hne
    refine ⟨piece, hpiece, by simpa using hne, ?_⟩
    rw [htrim, String.ofList_toList]
  · rintro ⟨piece, hpiece, hne, rfl⟩
    rw [String.toList_ofList]
    exact ⟨⟨piece, hpiece, rfl⟩, by simpa using hne⟩

theorem notMem_ofLine_empty (w : String) : w ∉ ofLine "" := by
  rw [mem_ofLine_iff]
  simp

theorem map_trim_splitOn_append (hfront : ∀ c ∈ front, isBlank c = true)
    (hback : ∀ c ∈ back, isBlank c = true) (cs : List Char) :
    ((front ++ cs ++ back).splitOn ',').map trim = (cs.splitOn ',').map trim := by
  have hcomma : isBlank ',' = false := by decide
  have hfront' : ',' ∉ front := fun h => by simpa [hcomma] using hfront _ h
  have hback' : ',' ∉ back := fun h => by simpa [hcomma] using hback _ h
  have hhead (l : List (List Char)) : (l.modifyHead (front ++ ·)).map trim = l.map trim := by
    cases l <;> simp [trim_append_left hfront]
  obtain ⟨init, last, hcs, happend⟩ := exists_splitOn_append hback' cs
  rw [List.append_assoc, splitOn_append hfront', hhead, happend, hcs]
  simp [trim_append_right hback]

/-- **Two lines with a comma between them have the pieces of both.** -/
theorem pieces_append_comma (front back : List Char) :
    pieces (front ++ ',' :: back) = pieces front ++ pieces back := by
  rw [pieces, List.splitOn_append_cons_self, List.map_append, List.filter_append, pieces, pieces]

/-- Blanks around a line do not matter. -/
theorem pieces_append_blank (hfront : ∀ c ∈ front, isBlank c = true)
    (hback : ∀ c ∈ back, isBlank c = true) (cs : List Char) :
    pieces (front ++ cs ++ back) = pieces cs := by
  rw [pieces, map_trim_splitOn_append hfront hback, pieces]

/-- A line without commas is one piece, unless it is blank. -/
theorem pieces_of_notMem (h : ',' ∉ cs) : pieces cs = if trim cs = [] then [] else [trim cs] := by
  rw [pieces, List.splitOn_eq_singleton h, List.map_singleton]
  split_ifs with htrim
  · rw [htrim]
    rfl
  · rw [List.filter_cons_of_pos (by simpa using htrim), List.filter_nil]

/-- A line without commas has one word, unless it is blank. -/
theorem mem_ofLine_of_notMem (h : ',' ∉ line.toList) :
    w ∈ ofLine line ↔ trim line.toList ≠ [] ∧ w.toList = trim line.toList := by
  rw [mem_ofLine_iff_pieces, pieces_of_notMem h]
  split_ifs with htrim <;> simp [htrim]

theorem ofLine_trim (cs : List Char) :
    ofLine (String.ofList (trim cs)) = ofLine (String.ofList cs) := by
  obtain ⟨front, back, hfront, hback, h⟩ := exists_eq_trim cs
  have hpieces := pieces_append_blank hfront hback (trim cs)
  rw [← h] at hpieces
  rw [ofLine, ofLine, String.toList_ofList, String.toList_ofList, hpieces]

theorem ofLine_append_blank {front back : String} (hfront : isBlankText front = true)
    (hback : isBlankText back = true) (line : String) :
    ofLine (front ++ line ++ back) = ofLine line := by
  rw [ofLine, String.toList_append, String.toList_append,
    pieces_append_blank (List.all_eq_true.1 hfront) (List.all_eq_true.1 hback), ofLine]

/-- A line has a word if it starts with a character that can be in one. -/
theorem ofLine_ne_empty {c : Char} (hline : line.toList = c :: cs) (hblank : isBlank c = false)
    (hcomma : c ≠ ',') : ofLine line ≠ ∅ := by
  intro hempty
  have hsplit : (c :: cs).splitOn ',' = (cs.splitOn ',').modifyHead (c :: ·) := by
    rw [List.splitOn_cons_eq_if_modifyHead, if_neg (by simpa using hcomma)]
  cases hrest : cs.splitOn ',' with
  | nil => exact List.splitOn_ne_nil ',' cs hrest
  | cons first rest =>
    rw [hrest, List.modifyHead_cons] at hsplit
    have htrim : trim (c :: first) ≠ [] := fun h => by
      rw [trim_eq_nil_iff.1 h c List.mem_cons_self] at hblank
      cases hblank
    have hmem : String.ofList (trim (c :: first)) ∈ ofLine line := by
      rw [mem_ofLine_iff, hline, hsplit]
      exact ⟨c :: first, List.mem_cons_self, htrim, rfl⟩
    rw [hempty] at hmem
    simp at hmem

/-! ## What can be a word -/

/-- What can be a word of a line: a text that is not empty, has no blank at its start or its end,
and has no comma. -/
structure IsWord (w : String) : Prop where
  ne_empty : w ≠ ""
  head : ∀ c ∈ w.toList.head?, isBlank c = false
  last : ∀ c ∈ w.toList.getLast?, isBlank c = false
  comma_notMem : ',' ∉ w.toList

theorem isWord_of_trimmed (hne : w ≠ "") (htrim : Trimmed w.toList) (hcomma : ',' ∉ w.toList) :
    IsWord w := ⟨hne, htrim.head, htrim.last, hcomma⟩

theorem IsWord.trimmed (h : IsWord w) : Trimmed w.toList := trimmed_of_ends h.head h.last

theorem IsWord.mem_ofLine_iff {v : String} (h : IsWord w) : v ∈ ofLine w ↔ v = w := by
  have htrim : trim w.toList = w.toList := h.trimmed
  rw [mem_ofLine_of_notMem h.comma_notMem, htrim, String.toList_inj]
  exact and_iff_right (mt String.toList_eq_nil_iff.1 h.ne_empty)

theorem IsWord.ofLine_eq (h : IsWord w) : ofLine w = {w} := by
  apply Std.ExtTreeSet.ext_mem
  intro v
  rw [h.mem_ofLine_iff, Std.ExtTreeSet.singleton_eq_insert, Std.ExtTreeSet.mem_insert,
    Std.LawfulEqCmp.compare_eq_iff_eq, or_iff_left Std.ExtTreeSet.not_mem_empty, eq_comm]

/-- Two words with a space between them can be one word. -/
theorem IsWord.append {v : String} (hv : IsWord v) (hw : IsWord w) : IsWord (v ++ " " ++ w) := by
  apply isWord_of_trimmed
  · simp [hv.ne_empty]
  · exact hv.trimmed.append_text hw.trimmed hv.ne_empty hw.ne_empty " "
  · simp [hv.comma_notMem, hw.comma_notMem]

/-- **The words of a line can be words of a line.** -/
theorem isWord_of_mem_ofLine (hw : w ∈ ofLine line) : IsWord w := by
  obtain ⟨piece, hpiece, hne, rfl⟩ := mem_ofLine_iff.1 hw
  apply isWord_of_trimmed
  · rwa [ne_eq, String.ofList_eq_empty_iff]
  · rw [String.toList_ofList]
    exact trimmed_trim piece
  · rw [String.toList_ofList]
    exact fun h => notMem_of_mem_splitOn hpiece ((trim_infix_self piece).subset h)

/-! ## Lines put together

What is put between two lines is a comma, with or without blanks around it. -/

theorem pieces_append_separator (hsep : trim sep = [',']) (front back : List Char) :
    pieces (front ++ sep ++ back) = pieces front ++ pieces back := by
  obtain ⟨before, after, hbefore, hafter, h⟩ := exists_eq_trim sep
  rw [hsep] at h
  calc pieces (front ++ sep ++ back)
      = pieces ((front ++ before) ++ ',' :: (after ++ back)) := by simp [h]
    _ = pieces ([] ++ front ++ before) ++ pieces (after ++ back ++ []) := by
        rw [pieces_append_comma, List.nil_append, List.append_nil]
    _ = pieces front ++ pieces back := by
        rw [pieces_append_blank (List.forall_mem_nil _) hbefore,
          pieces_append_blank hafter (List.forall_mem_nil _)]

/-- **The pieces of lines that are put together.** -/
theorem pieces_intercalate (hsep : trim sep = [',']) (ps : List (List Char)) :
    pieces (sep.intercalate ps) = ps.flatMap pieces := by
  induction ps with
  | nil => rfl
  | cons p ps ih =>
    cases ps with
    | nil => simp
    | cons q ps =>
      rw [List.intercalate_cons_cons, pieces_append_separator hsep, ih, ← List.flatMap_cons]

/-- **Lines that are put together have the words of each of them.** -/
theorem mem_ofLine_intercalate {sep : String} (hsep : trim sep.toList = [','])
    (lines : List String) :
    w ∈ ofLine (sep.intercalate lines) ↔ ∃ line ∈ lines, w ∈ ofLine line := by
  simp only [mem_ofLine_iff_pieces]
  rw [String.toList_intercalate, pieces_intercalate hsep, List.flatMap_map, List.mem_flatMap]

/-- Words with commas between them are the words of that line. -/
theorem mem_ofLine_words {ws : List String} (hws : ∀ w ∈ ws, IsWord w) :
    w ∈ ofLine (", ".intercalate ws) ↔ w ∈ ws := by
  rw [mem_ofLine_intercalate (by decide)]
  constructor
  · rintro ⟨v, hv, hw⟩
    rwa [(hws v hv).mem_ofLine_iff.1 hw]
  · exact fun hw => ⟨w, hw, (hws w hw).mem_ofLine_iff.2 rfl⟩

theorem intercalate_ne_empty (hw : w ≠ "") (sep : String) (ws : List String) :
    sep.intercalate (w :: ws) ≠ "" := by
  cases ws <;> simp [hw]

theorem trimmed_intercalate {ws : List String} (hws : ∀ w ∈ ws, IsWord w) :
    Trimmed (", ".intercalate ws).toList := by
  induction ws with
  | nil => rfl
  | cons w ws ih =>
    obtain ⟨hw, hrest⟩ := List.forall_mem_cons.1 hws
    cases ws with
    | nil =>
      rw [String.intercalate_singleton]
      exact hw.trimmed
    | cons next ws =>
      have hnext : next ≠ "" := (hrest next List.mem_cons_self).ne_empty
      rw [String.intercalate_cons_cons]
      exact hw.trimmed.append_text (ih hrest) hw.ne_empty (intercalate_ne_empty hnext _ _) ", "

theorem mem_foldr_union {sets : List Words} :
    w ∈ sets.foldr (· ∪ ·) ∅ ↔ ∃ words ∈ sets, w ∈ words := by
  induction sets with
  | nil => simp
  | cons words sets ih =>
    rw [List.foldr_cons, Std.ExtTreeSet.mem_union_iff, ih, List.exists_mem_cons_iff]

theorem ofLine_intercalate {sep : String} (hsep : trim sep.toList = [',']) (lines : List String) :
    ofLine (sep.intercalate lines) = (lines.map ofLine).foldr (· ∪ ·) ∅ := by
  apply Std.ExtTreeSet.ext_mem
  intro w
  rw [mem_ofLine_intercalate hsep, mem_foldr_union]
  simp only [List.mem_map, exists_exists_and_eq_and]

theorem trim_separator {front back : String} (hfront : isBlankText front = true)
    (hback : isBlankText back = true) : trim (front ++ "," ++ back).toList = [','] := by
  rw [String.toList_append, String.toList_append,
    trim_append_right (List.all_eq_true.1 hback), trim_append_left (List.all_eq_true.1 hfront)]
  rfl

/-- **Commas put sets of words together.** Two lines with a comma between them have the words of
both, and blanks around a line do not matter. So lines with commas between them have the words of
all of them, in whatever order the lines stand there and however often, and whether there are blanks
around the commas or not. As a word is the only one of its line, this tells the words of every
line. -/
theorem ofLine_comma_eq_union :
    (∀ line line' : String, ofLine (line ++ "," ++ line') = ofLine line ∪ ofLine line') ∧
      (∀ front line back : String, isBlankText front = true → isBlankText back = true →
        ofLine (front ++ line ++ back) = ofLine line) ∧
      (∀ lines : List String,
        ofLine (",".intercalate lines) = (lines.map ofLine).foldr (· ∪ ·) ∅) ∧
      (∀ (front back : String) (lines lines' : List String), isBlankText front = true →
        isBlankText back = true → (∀ line, line ∈ lines ↔ line ∈ lines') →
          ofLine ((front ++ "," ++ back).intercalate lines') = ofLine (",".intercalate lines)) ∧
      ∀ w : String, IsWord w → ofLine w = {w} := by
  refine ⟨?_, ?_, ?_, ?_, fun w hw => hw.ofLine_eq⟩
  · intro line line'
    apply Std.ExtTreeSet.ext_mem
    intro w
    rw [Std.ExtTreeSet.mem_union_iff, mem_ofLine_iff_pieces, mem_ofLine_iff_pieces,
      mem_ofLine_iff_pieces, String.toList_append, String.toList_append,
      pieces_append_separator (by decide), List.mem_append]
  · exact fun front line back hfront hback => ofLine_append_blank hfront hback line
  · exact ofLine_intercalate (by decide)
  · intro front back lines lines' hfront hback hsame
    apply Std.ExtTreeSet.ext_mem
    intro w
    rw [mem_ofLine_intercalate (trim_separator hfront hback), mem_ofLine_intercalate (by decide)]
    simp only [hsame]

/-- Three lines in another order, with one of them twice and blanks around the commas. One is a
word. -/
theorem ofLine_shuffled_keywords :
    isBlankText "\r\n" = true ∧ isBlankText "\u3000" = true ∧
      (∀ line, line ∈ ["mjt , exam", "", "izpit"] ↔ line ∈ ["izpit", "mjt , exam", "izpit", ""]) ∧
      ofLine ("\r\n" ++ "mjt , exam" ++ "\u3000") = ofLine "mjt , exam" ∧
      ofLine (("\r\n" ++ "," ++ "\u3000").intercalate ["izpit", "mjt , exam", "izpit", ""]) =
        ofLine (",".intercalate ["mjt , exam", "", "izpit"]) ∧
      IsWord "izpit" ∧ ofLine "izpit" = {"izpit"} := by
  have hfront : isBlankText "\r\n" = true := by decide
  have hback : isBlankText "\u3000" = true := by decide
  have hsame : ∀ line, line ∈ ["mjt , exam", "", "izpit"] ↔
      line ∈ ["izpit", "mjt , exam", "izpit", ""] := by
    intro line
    simp only [List.mem_cons, List.not_mem_nil, or_false]
    tauto
  have hword : IsWord "izpit" := isWord_of_trimmed (by decide) (by decide) (by decide)
  obtain ⟨-, hblank, -, hjoin, hself⟩ := ofLine_comma_eq_union
  exact ⟨hfront, hback, hsame, hblank _ _ _ hfront hback, hjoin _ _ _ _ hfront hback hsame, hword,
    hself _ hword⟩

/-! ## Writing a line and reading it back -/

theorem toLine_eq_intercalate (words : Words) : words.toLine = ", ".intercalate words.toList := by
  rw [← String.toList_inj, toLine, String.toList_ofList, String.toList_intercalate]
  rfl

/-- A label stands in a written line if it stands in one of the words. -/
theorem contains_toLine_iff {key : String} (hkey : IsLabel key) :
    Text.contains key words.toLine = true ↔ ∃ w ∈ words, Text.contains key w = true := by
  have hsep : ∀ c ∈ ", ".toList, c ∉ key.toList :=
    List.forall_mem_cons.2 ⟨hkey.comma_notMem,
      List.forall_mem_singleton.2 (hkey.notMem_of_blank (by decide))⟩
  rw [contains_iff, toLine_eq_intercalate,
    infix_intercalate_iff hsep (by decide) hkey.toList_ne_nil]
  simp only [Std.ExtTreeSet.mem_toList, contains_iff]

/-- Words that are written are read back. -/
theorem ofLine_toLine (h : ∀ w ∈ words, IsWord w) : ofLine words.toLine = words := by
  have hws : ∀ w ∈ words.toList, IsWord w := fun w hw => h w (Std.ExtTreeSet.mem_toList.1 hw)
  apply Std.ExtTreeSet.ext_mem
  intro w
  rw [toLine_eq_intercalate, mem_ofLine_words hws, Std.ExtTreeSet.mem_toList]

/-- **Which sets of words can be read back.** A set is read back from its line exactly if none of
its words is empty, has a blank at its start or its end, or has a comma. The words of any line are
like that, so what is read from a line, written and read again is the same. -/
theorem read_back_iff :
    (∀ words : Words, ofLine words.toLine = words ↔ ∀ w ∈ words, IsWord w) ∧
      ∀ line : String, (∀ w ∈ ofLine line, IsWord w) ∧
        ofLine (ofLine line).toLine = ofLine line := by
  refine ⟨?_, ?_⟩
  · intro words
    constructor
    · intro hback w hw
      rw [← hback] at hw
      exact isWord_of_mem_ofLine hw
    · exact ofLine_toLine
  · intro line
    exact ⟨fun w => isWord_of_mem_ofLine, ofLine_toLine fun w => isWord_of_mem_ofLine⟩

/-- The line has the word, but it is read as two. -/
example : (ofLine (Words.toLine (.ofList ["a", "a, b", "b"]))).toList = ["a", "b"] := by
  decide +kernel

/-! ## Words in one line -/

/-- A word that keeps its form in a line: it is a value, not empty, and without a comma. -/
def Clean (w : String) : Prop := w ≠ "" ∧ IsValue w ∧ ',' ∉ w.toList

instance (w : String) : Decidable (Clean w) :=
  inferInstanceAs <| Decidable (w ≠ "" ∧ IsValue w ∧ ',' ∉ w.toList)

theorem clean_of_isLabel (h : IsLabel w) : Clean w := ⟨h.1, h.isValue, h.comma_notMem⟩

theorem Clean.isWord (h : Clean w) : IsWord w := isWord_of_trimmed h.1 h.2.1.1 h.2.2

/-- **The words of one line are clean.** -/
theorem clean_of_mem_ofLine (hline : '\n' ∉ line.toList) (hw : w ∈ ofLine line) : Clean w := by
  have hword := isWord_of_mem_ofLine hw
  obtain ⟨piece, hpiece, -, rfl⟩ := mem_ofLine_iff.1 hw
  have hsubset : trim piece ⊆ line.toList :=
    List.Subset.trans (trim_infix_self piece).subset (subset_of_mem_splitOn hpiece)
  refine ⟨hword.ne_empty, ⟨hword.trimmed, ?_⟩, hword.comma_notMem⟩
  rw [String.toList_ofList]
  exact fun h => hline (hsubset h)

theorem isValue_toLine (h : ∀ w ∈ words, Clean w) : IsValue words.toLine := by
  have hclean : ∀ w ∈ words.toList, Clean w := fun w hw => h w (Std.ExtTreeSet.mem_toList.1 hw)
  rw [toLine_eq_intercalate]
  exact ⟨trimmed_intercalate fun w hw => (hclean w hw).isWord,
    notMem_intercalate (by decide) (by decide) fun w hw => (hclean w hw).2.1.2⟩

theorem toLine_eq_empty_iff (h : ∀ w ∈ words, Clean w) : words.toLine = "" ↔ words = ∅ := by
  constructor
  · intro hline
    rw [← ofLine_toLine fun w hw => (h w hw).isWord, hline]
    decide
  · rintro rfl
    decide

/-- **Words behind a text in one line are not the words themselves.** The first word is either the
text with that word behind it, or it is not there. -/
theorem ofLine_label_ne {label : String} (hlabel : Clean label) (h : ∀ w ∈ words, Clean w) :
    ofLine (label ++ " " ++ words.toLine) ≠ words := by
  intro heq
  have hmem (w : String) : w ∈ ofLine (label ++ " " ++ words.toLine) ↔ w ∈ words.toList := by
    rw [heq, Std.ExtTreeSet.mem_toList]
  have hnodup : words.toList.Nodup :=
    Std.ExtTreeSet.distinct_toList.imp Std.ReflCmp.ne_of_cmp_ne_eq
  simp only [← Std.ExtTreeSet.mem_toList (t := words)] at h
  rw [toLine_eq_intercalate] at hmem
  cases hwords : words.toList with
  | nil =>
    have hlabel_mem : label ∈ ofLine (label ++ " ") := by
      rw [← String.empty_append (s := label), ofLine_append_blank rfl rfl]
      exact hlabel.isWord.mem_ofLine_iff.2 rfl
    have hnone := hmem label
    rw [hwords, String.intercalate_nil, String.append_empty] at hnone
    exact List.not_mem_nil (hnone.1 hlabel_mem)
  | cons first ws =>
    rw [hwords] at h hnodup hmem
    have hfirst : IsWord first := (h first List.mem_cons_self).isWord
    have hws : ∀ w ∈ (label ++ " " ++ first) :: ws, IsWord w :=
      List.forall_mem_cons.2 ⟨hlabel.isWord.append hfirst,
        fun w hw => (h w (List.mem_cons_of_mem first hw)).isWord⟩
    have hfirst_mem : first ∈ (label ++ " " ++ first) :: ws := by
      rw [← mem_ofLine_words hws, String.intercalate_cons_append, hmem]
      exact List.mem_cons_self
    rcases List.mem_cons.1 hfirst_mem with heq | hfirst_mem
    · -- a text is not a part of itself
      have hlen := congrArg (fun s => s.toList.length) heq
      simp at hlen
      omega
    · exact (List.nodup_cons.1 hnodup).1 hfirst_mem

end SortingOffice.Words
