import Mathlib.Data.List.Infix
import Mathlib.Tactic.SplitIfs
import SortingOffice.Text.Search

/-!
# Places of a key

A text is often put together from parts. A key cannot stand across two parts if a character that
the key does not have is between them.

* `after?_eq_none_iff`, `contains_iff`: a key stands in a text if it is a run of its characters.
* **`infix_append_cons_iff`**, `infix_intercalate_iff`, `notMem_intercalate`: a key or a character in
  a text of several parts.
* **`after?_append_of_some`**, **`after?_append_cons`**: the leftmost place in a text of two parts.
* `countFrom_append_cons`, `countFrom_key_append`: the places in a text of two parts.
* `Apart`: a key that cannot begin within a text, whatever follows it.
* `notMem_of_mem_splitOn`, `splitOn_append`, `exists_splitOn_append`: the pieces between separators.
-/

namespace SortingOffice.Text

variable {key cs front back rest : List Char} {c : Char}

/-! ## Whether a key stands in a text -/

theorem after?_eq_none_iff : after? key cs = none ↔ ¬ key <:+: cs := by
  induction cs with
  | nil => cases key <;> simp [after?]
  | cons c cs ih =>
    rw [after?, List.infix_cons_iff, not_or]
    split_ifs with hprefix
    · simp [List.isPrefixOf_iff_prefix.1 hprefix]
    · rw [ih]
      simp [mt List.isPrefixOf_iff_prefix.2 hprefix]

theorem exists_after?_iff : (∃ rest, after? key cs = some rest) ↔ key <:+: cs := by
  rw [← Option.isSome_iff_exists, ← not_iff_not, Bool.not_eq_true, Option.isSome_eq_false_iff,
    Option.isNone_iff_eq_none, after?_eq_none_iff]

theorem contains_iff {key text : String} :
    contains key text = true ↔ key.toList <:+: text.toList := by
  rw [contains, Option.isSome_iff_exists, exists_after?_iff]

theorem contains_eq_false_iff {key text : String} :
    contains key text = false ↔ ¬ key.toList <:+: text.toList := by
  rw [← contains_iff, Bool.not_eq_true]

/-! ## The leftmost place -/

@[simp] theorem after?_key_append (key cs : List Char) : after? key (key ++ cs) = some cs := by
  cases key with
  | nil => exact after?_empty cs
  | cons c key =>
    rw [List.cons_append, after?, ← List.cons_append, if_pos, List.drop_left]
    exact List.isPrefixOf_iff_prefix.2 (List.prefix_append (c :: key) cs)

/-- **A place in the first part stays the leftmost one.** -/
theorem after?_append_of_some (h : after? key front = some rest) (back : List Char) :
    after? key (front ++ back) = some (rest ++ back) := by
  induction front with
  | nil =>
    rw [after?] at h
    split_ifs at h with hempty
    rw [List.isEmpty_iff.1 hempty, after?_empty, ← Option.some.inj h]
  | cons c front ih =>
    rw [after?] at h
    rw [List.cons_append, after?]
    by_cases hprefix : key <+: c :: front
    · obtain ⟨tail, htail⟩ := hprefix
      rw [if_pos (List.isPrefixOf_iff_prefix.2 ⟨tail, htail⟩), ← htail, List.drop_left] at h
      rw [← List.cons_append, ← htail, if_pos]
      · rw [List.append_assoc, List.drop_left, Option.some.inj h]
      · rw [List.append_assoc]
        exact List.isPrefixOf_iff_prefix.2 (List.prefix_append key _)
    · rw [if_neg (mt List.isPrefixOf_iff_prefix.1 hprefix)] at h
      -- the key is no longer than the rest of the first part, where it stands
      have hlen : key.length ≤ (c :: front).length :=
        (exists_after?_iff.1 ⟨rest, h⟩).length_le.trans (Nat.le_succ _)
      have hprefix' : ¬ key <+: c :: front ++ back := by
        rwa [List.isPrefix_append_of_length hlen]
      rw [← List.cons_append, if_neg (mt List.isPrefixOf_iff_prefix.1 hprefix'), ih h]

/-- A key that begins in front of a character that it does not have ends there at the latest. -/
theorem isPrefixOf_append_cons (hc : c ∉ key) (front back : List Char) :
    key.isPrefixOf (front ++ c :: back) = key.isPrefixOf front := by
  rw [Bool.eq_iff_iff, List.isPrefixOf_iff_prefix, List.isPrefixOf_iff_prefix]
  constructor
  · intro h
    rcases List.prefix_or_prefix_of_prefix h (List.prefix_append front (c :: back)) with h' | h'
    · exact h'
    · obtain ⟨tail, rfl⟩ := h'
      cases tail with
      | nil => simp
      | cons d tail =>
        rw [List.prefix_append_right_inj, List.cons_prefix_cons] at h
        exact absurd (by simp [h.1]) hc
  · exact fun h => h.trans (List.prefix_append front _)

theorem isPrefixOf_cons_of_notMem (hc : c ∉ key) (hkey : key ≠ []) (back : List Char) :
    key.isPrefixOf (c :: back) = false := by
  have h := isPrefixOf_append_cons hc [] back
  rw [List.nil_append] at h
  rw [h]
  cases key with
  | nil => exact absurd rfl hkey
  | cons d key => rfl

/-- **A key stands in one of two parts, if a character between them is not in the key.** -/
theorem infix_append_cons_iff (hc : c ∉ key) (hkey : key ≠ []) :
    key <:+: front ++ c :: back ↔ key <:+: front ∨ key <:+: back := by
  induction front with
  | nil =>
    have hprefix := isPrefixOf_cons_of_notMem hc hkey back
    rw [List.nil_append, List.infix_cons_iff, ← List.isPrefixOf_iff_prefix, hprefix]
    simp [hkey]
  | cons d front ih =>
    have hprefix := isPrefixOf_append_cons hc (d :: front) back
    rw [List.cons_append, List.infix_cons_iff, ih, List.infix_cons_iff, or_assoc,
      ← List.cons_append, ← List.isPrefixOf_iff_prefix, hprefix, List.isPrefixOf_iff_prefix]

theorem infix_append_left_iff (hfront : ∀ c ∈ front, c ∉ key) (hkey : key ≠ [])
    (back : List Char) : key <:+: front ++ back ↔ key <:+: back := by
  induction front with
  | nil => rfl
  | cons c front ih =>
    have hc : c ∉ key := hfront c List.mem_cons_self
    have hrest : ∀ c ∈ front, c ∉ key := fun d hd => hfront d (List.mem_cons_of_mem c hd)
    rw [List.cons_append, ← List.nil_append (c :: (front ++ back)), infix_append_cons_iff hc hkey,
      ih hrest, List.infix_nil]
    exact or_iff_right hkey

theorem infix_append_right_iff (hback : ∀ c ∈ back, c ∉ key) (hkey : key ≠ [])
    (front : List Char) : key <:+: front ++ back ↔ key <:+: front := by
  cases back with
  | nil => rw [List.append_nil]
  | cons c back =>
    have hc : c ∉ key := hback c List.mem_cons_self
    have hrest : ¬ key <:+: back := by
      rw [← List.append_nil back, infix_append_left_iff (fun d hd =>
        hback d (List.mem_cons_of_mem c hd)) hkey, List.infix_nil]
      exact hkey
    rw [infix_append_cons_iff hc hkey]
    exact or_iff_left hrest

/-- **A key stands in one of several parts, if it has nothing of what is between them.** -/
theorem infix_intercalate_iff {sep : String} {texts : List String}
    (hsep : ∀ c ∈ sep.toList, c ∉ key) (hne : sep ≠ "") (hkey : key ≠ []) :
    key <:+: (sep.intercalate texts).toList ↔ ∃ text ∈ texts, key <:+: text.toList := by
  induction texts with
  | nil => simp [hkey]
  | cons text texts ih =>
    cases texts with
    | nil => simp
    | cons next texts =>
      cases hchars : sep.toList with
      | nil => exact absurd (String.toList_eq_nil_iff.1 hchars) hne
      | cons c rest =>
        rw [hchars] at hsep
        have hc : c ∉ key := hsep c List.mem_cons_self
        have hrest : ∀ d ∈ rest, d ∉ key := fun d hd => hsep d (List.mem_cons_of_mem c hd)
        rw [String.intercalate_cons_cons, String.toList_append, String.toList_append, hchars,
          List.append_assoc, List.cons_append, infix_append_cons_iff hc hkey,
          infix_append_left_iff hrest hkey, ih, List.exists_mem_cons_iff (a := text)]

theorem notMem_intercalate {sep : String} {texts : List String} (hsep : c ∉ sep.toList)
    (hne : sep ≠ "") (htexts : ∀ text ∈ texts, c ∉ text.toList) :
    c ∉ (sep.intercalate texts).toList := by
  have hsep' : ∀ d ∈ sep.toList, d ∉ [c] := fun d hd hc => hsep (List.mem_singleton.1 hc ▸ hd)
  rw [← List.singleton_infix_iff, infix_intercalate_iff hsep' hne (List.cons_ne_nil c [])]
  rintro ⟨text, htext, hc⟩
  exact htexts text htext ((List.singleton_infix_iff c _).1 hc)

/-- **If a key stands in the second part only, that place is the leftmost one.** -/
theorem after?_append_cons (hc : c ∉ key) (h : after? key front = none) (back : List Char) :
    after? key (front ++ c :: back) = after? key back := by
  have hkey : key ≠ [] := by
    rintro rfl
    rw [after?_empty] at h
    cases h
  induction front with
  | nil =>
    rw [List.nil_append, after?, isPrefixOf_cons_of_notMem hc hkey, if_neg Bool.false_ne_true]
  | cons d front ih =>
    rw [after?_eq_none_iff, List.infix_cons_iff, not_or, ← List.isPrefixOf_iff_prefix,
      ← isPrefixOf_append_cons hc (d :: front) back] at h
    rw [List.cons_append, after?, ← List.cons_append, if_neg h.1, ih (after?_eq_none_iff.2 h.2)]

/-! ## All places -/

theorem countFrom_eq_zero (h : ¬ key <:+: cs) : countFrom key 0 cs = 0 := by
  induction cs with
  | nil => cases key <;> simp [countFrom] at h ⊢
  | cons c cs ih =>
    rw [List.infix_cons_iff, not_or] at h
    rw [countFrom, if_neg (mt List.isPrefixOf_iff_prefix.1 h.1), ih h.2]

theorem countFrom_ne_zero (h : key <:+: cs) : countFrom key 0 cs ≠ 0 := by
  induction cs with
  | nil =>
    rw [List.infix_nil.1 h]
    exact Nat.one_ne_zero
  | cons c cs ih =>
    rw [countFrom]
    split_ifs with hprefix
    · exact Nat.succ_ne_zero _
    · exact ih ((List.infix_cons_iff.1 h).resolve_left (mt List.isPrefixOf_iff_prefix.2 hprefix))

theorem countFrom_covered (key front back : List Char) :
    countFrom key front.length (front ++ back) = countFrom key 0 back := by
  induction front with
  | nil => rfl
  | cons c front ih => rw [List.length_cons, List.cons_append, countFrom, ih]

/-- **A key in front of a text counts once more.** -/
theorem countFrom_key_append (hkey : key ≠ []) (cs : List Char) :
    countFrom key 0 (key ++ cs) = countFrom key 0 cs + 1 := by
  cases key with
  | nil => exact absurd rfl hkey
  | cons c key =>
    rw [List.cons_append, countFrom, ← List.cons_append, if_pos, List.length_cons,
      Nat.add_sub_cancel, countFrom_covered]
    exact List.isPrefixOf_iff_prefix.2 (List.prefix_append (c :: key) cs)

/-- **The places in two parts add up, if a character between them is not in the key.** -/
theorem countFrom_append_cons (hc : c ∉ key) (hkey : key ≠ []) {covered : Nat}
    (hcovered : covered ≤ front.length) (back : List Char) :
    countFrom key covered (front ++ c :: back) =
      countFrom key covered front + countFrom key 0 back := by
  induction front generalizing covered with
  | nil =>
    obtain rfl : covered = 0 := Nat.le_zero.1 hcovered
    have hnil : key.isEmpty = false := List.isEmpty_eq_false_iff.2 hkey
    have hprefix := isPrefixOf_cons_of_notMem hc hkey back
    simp [countFrom, hnil, hprefix]
  | cons d front ih =>
    cases covered with
    | succ covered =>
      rw [List.cons_append, countFrom, countFrom, ih (Nat.le_of_succ_le_succ hcovered)]
    | zero =>
      have hprefix := isPrefixOf_append_cons hc (d :: front) back
      rw [List.cons_append, countFrom, countFrom, ← List.cons_append, hprefix]
      split_ifs with h
      · have hlen : key.length - 1 ≤ front.length :=
          Nat.sub_le_of_le_add (List.isPrefixOf_iff_prefix.1 h).length_le
        rw [ih hlen]
        omega
      · exact ih (Nat.zero_le _)

/-! ## Keys that cannot begin within a text -/

/-- Wherever `key` would begin within `front`, the two differ in some character that both have. -/
def Apart (key front : List Char) : Prop :=
  ∀ s ∈ front.tails, s ≠ [] → ¬ key <+: s ∧ ¬ s <+: key

instance (key front : List Char) : Decidable (Apart key front) :=
  inferInstanceAs <| Decidable (∀ s ∈ front.tails, s ≠ [] → ¬ key <+: s ∧ ¬ s <+: key)

theorem Apart.tail (h : Apart key (c :: front)) : Apart key front := fun s hs => h s (by
  rw [List.tails_cons]
  exact List.mem_cons_of_mem _ hs)

theorem Apart.not_prefix_append (h : Apart key (c :: front)) (back : List Char) :
    ¬ key <+: c :: (front ++ back) := by
  intro hkey
  obtain ⟨hshort, hlong⟩ := h (c :: front) (by simp) (List.cons_ne_nil c front)
  rcases List.prefix_or_prefix_of_prefix hkey (List.prefix_append (c :: front) back) with h' | h'
  · exact hshort h'
  · exact hlong h'

theorem Apart.infix_append_iff (h : Apart key front) : key <:+: front ++ back ↔ key <:+: back := by
  induction front with
  | nil => rfl
  | cons c front ih =>
    rw [List.cons_append, List.infix_cons_iff, ih h.tail]
    exact or_iff_right (h.not_prefix_append back)

/-! ## Pieces between separators -/

theorem exists_splitOn_eq_takeWhile (a : Char) (cs : List Char) :
    ∃ rest, cs.splitOn a = cs.takeWhile (· != a) :: rest := by
  induction cs with
  | nil => exact ⟨[], rfl⟩
  | cons c cs ih =>
    obtain ⟨rest, hrest⟩ := ih
    rw [List.splitOn_cons_eq_if_modifyHead, hrest]
    by_cases hc : c = a
    · exact ⟨cs.takeWhile (· != a) :: rest, by simp [hc]⟩
    · exact ⟨rest, by simp [hc]⟩

theorem notMem_of_mem_splitOn {a : Char} {cs piece : List Char} (h : piece ∈ cs.splitOn a) :
    a ∉ piece := by
  induction cs generalizing piece with
  | nil =>
    rw [List.splitOn_nil, List.mem_singleton] at h
    rw [h]
    exact List.not_mem_nil
  | cons c cs ih =>
    rw [List.splitOn_cons_eq_if_modifyHead] at h
    cases hrest : cs.splitOn a with
    | nil => exact absurd hrest (List.splitOn_ne_nil a cs)
    | cons first rest =>
      rw [hrest] at h ih
      split_ifs at h with hc
      · rcases List.mem_cons.1 h with rfl | h
        · exact List.not_mem_nil
        · exact ih h
      · rcases List.mem_cons.1 h with rfl | h
        · rw [List.mem_cons, not_or]
          exact ⟨fun heq => hc (beq_iff_eq.2 heq.symm), ih List.mem_cons_self⟩
        · exact ih (List.mem_cons_of_mem first h)

theorem subset_of_mem_splitOn {a : Char} {cs piece : List Char} (h : piece ∈ cs.splitOn a) :
    piece ⊆ cs := by
  have hjoin (ps : List (List Char)) (hmem : piece ∈ ps) : piece ⊆ [a].intercalate ps := by
    induction ps with
    | nil => cases hmem
    | cons p ps ih =>
      cases ps with
      | nil =>
        rw [List.mem_singleton.1 hmem, List.intercalate_singleton]
        exact List.Subset.refl p
      | cons q ps =>
        rw [List.intercalate_cons_cons, List.append_assoc]
        rcases List.mem_cons.1 hmem with rfl | hmem
        · exact List.subset_append_left _ _
        · exact List.subset_append_of_subset_right _
            (List.subset_append_of_subset_right _ (ih hmem))
  have h' := hjoin _ h
  rwa [List.intercalate_splitOn] at h'

/-- What is put behind a text goes to its last piece, if there is no separator in it. -/
theorem exists_splitOn_append {a : Char} (hback : a ∉ back) (cs : List Char) :
    ∃ init last, cs.splitOn a = init ++ [last] ∧
      (cs ++ back).splitOn a = init ++ [last ++ back] := by
  induction cs with
  | nil => exact ⟨[], [], rfl, List.splitOn_eq_singleton hback⟩
  | cons c cs ih =>
    obtain ⟨init, last, hcs, happend⟩ := ih
    rw [List.cons_append, List.splitOn_cons_eq_if_modifyHead, List.splitOn_cons_eq_if_modifyHead,
      hcs, happend]
    split_ifs
    · exact ⟨[] :: init, last, rfl, rfl⟩
    · cases init with
      | nil => exact ⟨[], c :: last, rfl, rfl⟩
      | cons first init => exact ⟨(c :: first) :: init, last, rfl, rfl⟩

/-- What is put in front of a text goes to its first piece, if there is no separator in it. -/
theorem splitOn_append {a : Char} (hfront : a ∉ front) (cs : List Char) :
    (front ++ cs).splitOn a = (cs.splitOn a).modifyHead (front ++ ·) := by
  induction front with
  | nil =>
    cases h : cs.splitOn a <;> simp [h]
  | cons c front ih =>
    rw [List.mem_cons, not_or] at hfront
    have hc : ¬ (c == a) = true := fun h => hfront.1 (beq_iff_eq.1 h).symm
    rw [List.cons_append, List.splitOn_cons_eq_if_modifyHead, if_neg hc, ih hfront.2]
    cases cs.splitOn a <;> simp

end SortingOffice.Text
