import Mathlib.Data.List.Chain
import SortingOffice.Proofs.Path.Grammar

/-!
# Where the way up ends

Any text can be asked for as a path, so a path may start without a slash, end with one, or have
several side by side. The parent is found by the last slash all the same. Each step up leaves a
shorter text with the same first character, and the way up ends where there is no slash left, or at
the root.

* `parent?_eq_none_iff`: the paths without a parent.
* **`parent?_cases`**: what a parent is, with `prefix_of_parent?`, `head?_of_parent?` and
  `count_of_parent?` from it.
* `isChain_ancestors`, `length_ancestors_le`, `exists_getLast?_ancestors`: the way up.
* **`ancestors_end`**: the way up from every path.
-/

namespace SortingOffice.Path

variable {p q : Path}

/-! ## One step up -/

theorem pieces_dropLast_eq_nil_iff : p.pieces.dropLast = [] ↔ slash ∉ p.text.toList := by
  constructor
  · intro h hslash
    have hpieces := List.dropLast_concat_getLast p.pieces_ne_nil
    rw [h, List.nil_append] at hpieces
    have htext := p.toList_eq_intercalate
    rw [← hpieces, List.intercalate_singleton] at htext
    rw [htext] at hslash
    exact Text.notMem_of_mem_splitOn (List.getLast_mem p.pieces_ne_nil) hslash
  · intro h
    rw [pieces, List.splitOn_eq_singleton h]
    rfl

/-- The root has no parent, and neither has a path without a slash. All others have one. -/
theorem parent?_eq_none_iff : p.parent? = none ↔ p = root ∨ slash ∉ p.text.toList := by
  rw [← pieces_dropLast_eq_nil_iff, parent?]
  split_ifs with hroot
  · simp [hroot]
  · rw [or_iff_right hroot]
    split <;> simp_all

/-- **What a parent is.** The path is a slash and a name, and the parent is the root, or the path is
its parent, which is not empty, with a slash and a name behind it. -/
theorem parent?_cases (h : p.parent? = some q) : ∃ name, slash ∉ name ∧
    (q = root ∧ name ≠ [] ∧ p.text.toList = slash :: name ∨
      q.text ≠ "" ∧ p.text.toList = q.text.toList ++ slash :: name) := by
  have hname : slash ∉ p.lastPiece := Text.notMem_of_mem_splitOn (List.getLast_mem p.pieces_ne_nil)
  refine ⟨p.lastPiece, hname, ?_⟩
  unfold parent? at h
  split_ifs at h with hroot
  split at h
  · cases h
  · rename_i hfront
    cases h
    have htext := toList_eq_append (p := p) (by simp [hfront])
    rw [hfront] at htext
    refine .inl ⟨rfl, ?_, htext⟩
    intro hempty
    rw [hempty] at htext
    exact hroot (Path.ext (String.toList_inj.1 htext))
  · rename_i hne hfront
    cases h
    have htext := toList_eq_append (p := p) hne
    refine .inr ⟨?_, by rw [htext, ofPieces, String.toList_ofList]⟩
    rw [ofPieces, ne_eq, String.ofList_eq_empty_iff]
    intro hempty
    cases hpieces : p.pieces.dropLast with
    | nil => exact hne hpieces
    | cons piece rest =>
      rw [hpieces] at hempty
      cases rest with
      | nil =>
        rw [List.intercalate_singleton] at hempty
        exact hfront (by rw [hpieces, hempty])
      | cons _ _ => simp [List.intercalate_cons_cons] at hempty

theorem prefix_of_parent? (h : p.parent? = some q) : q.text.toList <+: p.text.toList := by
  obtain ⟨name, -, ⟨rfl, -, htext⟩ | ⟨-, htext⟩⟩ := parent?_cases h
  · exact ⟨name, htext.symm⟩
  · exact ⟨slash :: name, htext.symm⟩

theorem head?_of_parent? (h : p.parent? = some q) :
    q.text.toList.head? = p.text.toList.head? := by
  obtain ⟨name, -, ⟨rfl, -, htext⟩ | ⟨hne, htext⟩⟩ := parent?_cases h
  · rw [htext]
    rfl
  · rw [htext, List.head?_append_of_ne_nil _ (mt String.toList_eq_nil_iff.1 hne)]

/-- The root is the only parent that may have as many slashes as its child. -/
theorem count_of_parent? (h : p.parent? = some q) :
    q = root ∧ 1 ≤ p.text.toList.count slash ∨
      p.text.toList.count slash = q.text.toList.count slash + 1 := by
  obtain ⟨name, hname, ⟨rfl, -, htext⟩ | ⟨-, htext⟩⟩ := parent?_cases h
  · rw [htext, List.count_cons_self]
    exact .inl ⟨rfl, Nat.succ_pos _⟩
  · rw [htext, List.count_append, List.count_cons_self, List.count_eq_zero.2 hname]
    exact .inr rfl

/-! ## All steps up -/

theorem isChain_ancestors (p : Path) :
    (p :: p.ancestors).IsChain fun q r => q.parent? = some r := by
  induction p using ancestors.induct with
  | case1 p h =>
    rw [ancestors_of_none h]
    exact List.isChain_singleton p
  | case2 p q h _ ih =>
    rw [ancestors_of_some h, List.isChain_cons_cons]
    exact ⟨h, ih⟩

/-- Each step up, but for one to the root, takes a slash away. -/
theorem length_ancestors_le (p : Path) : p.ancestors.length ≤ p.text.toList.count slash := by
  induction p using ancestors.induct with
  | case1 p h =>
    rw [ancestors_of_none h]
    exact Nat.zero_le _
  | case2 p q h _ ih =>
    rw [ancestors_of_some h, List.length_cons]
    rcases count_of_parent? h with ⟨rfl, hcount⟩ | hcount
    · rwa [ancestors_root]
    · rw [hcount]
      exact Nat.succ_le_succ ih

/-- The last path on the way up has no parent, and starts as the first one does. -/
theorem exists_getLast?_ancestors (p : Path) : ∃ last, (p :: p.ancestors).getLast? = some last ∧
    last.parent? = none ∧ last.text.toList.head? = p.text.toList.head? := by
  induction p using ancestors.induct with
  | case1 p h =>
    rw [ancestors_of_none h]
    exact ⟨p, rfl, h, rfl⟩
  | case2 p q h _ ih =>
    obtain ⟨last, hlast, hnone, hhead⟩ := ih
    rw [ancestors_of_some h, List.getLast?_cons_cons]
    exact ⟨last, hlast, hnone, hhead.trans (head?_of_parent? h)⟩

/-- **The way up from any text.** The parent of a path, if it has one, is a part of its text from
the start, and shorter. So the way up, from parent to parent, ends. It has no more steps than the
text has slashes, and the path that it ends at has no parent. That path is the root if the text
starts with a slash, and otherwise it has no slash. -/
theorem ancestors_end (p : Path) :
    (∀ q, p.parent? = some q →
      q.text.toList <+: p.text.toList ∧ q.text.length < p.text.length) ∧
    (p :: p.ancestors).IsChain (fun q r => q.parent? = some r) ∧
    p.ancestors.length ≤ p.text.toList.count slash ∧
    ∃ last, (p :: p.ancestors).getLast? = some last ∧ last.parent? = none ∧
      if p.text.toList.head? = some slash then last = root else slash ∉ last.text.toList := by
  obtain ⟨last, hlast, hnone, hhead⟩ := exists_getLast?_ancestors p
  refine ⟨fun q h => ⟨prefix_of_parent? h, length_of_parent? h⟩, isChain_ancestors p,
    length_ancestors_le p, last, hlast, hnone, ?_⟩
  rw [← hhead]
  have hend := parent?_eq_none_iff.1 hnone
  split_ifs with hstart
  · exact hend.resolve_right (not_not.2 (List.mem_of_mem_head? hstart))
  · refine hend.resolve_left ?_
    rintro rfl
    exact hstart rfl

/-- Slashes side by side and at the end. -/
example : (Path.mk "/a//b/").ancestors.map Path.text = ["/a//b", "/a/", "/a", "/"] := by
  decide +kernel

end SortingOffice.Path
