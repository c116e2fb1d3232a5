import SortingOffice.Path
import SortingOffice.Proofs.Text.Search

/-!
# The grammar of paths

The paths that a user may create, written from left to right: the inbox, and then segments with a
slash before each.

* `Path.child`, `Path.descend`: a path with one segment more, or with several.
* `Path.IsSegment`: what can stand between slashes.
* `toList_descend`, `pieces_descend`: such a path as characters and as pieces.
* **`isUserPath_iff`**: which paths a user may create.
* `ancestors_of_some`, `ancestors_of_none`: the ancestors from the parent.
-/

namespace SortingOffice.Path

/-- The path with one segment more. -/
def child (p : Path) (segment : String) : Path := ⟨p.text ++ "/" ++ segment⟩

/-- The path with more segments. -/
def descend (p : Path) (segments : List String) : Path := segments.foldl child p

/-- A segment is not empty and has no slash. -/
def IsSegment (segment : String) : Prop := segment ≠ "" ∧ slash ∉ segment.toList

variable {p q : Path} {segments : List String}

/-! ## Pieces -/

theorem intercalate_cons (piece : List Char) (pieces : List (List Char)) :
    [slash].intercalate (piece :: pieces) = piece ++ pieces.flatMap (slash :: ·) := by
  induction pieces generalizing piece with
  | nil => simp
  | cons next pieces ih =>
    rw [List.intercalate_cons_cons, ih, List.flatMap_cons]
    simp

/-! ## Segments -/

theorem toList_descend (p : Path) (segments : List String) :
    (p.descend segments).text.toList =
      p.text.toList ++ segments.flatMap fun s => slash :: s.toList := by
  induction segments generalizing p with
  | nil => simp [descend]
  | cons s segments ih =>
    rw [descend, List.foldl_cons, ← descend, ih, child]
    simp [slash]

/-- The pieces of a path below the inbox. -/
theorem pieces_descend (h : ∀ s ∈ segments, slash ∉ s.toList) :
    (inbox.descend segments).pieces = [] :: "inbox".toList :: segments.map String.toList := by
  have htext : (inbox.descend segments).text.toList =
      [slash].intercalate ([] :: "inbox".toList :: segments.map String.toList) := by
    rw [toList_descend, intercalate_cons, List.flatMap_cons, List.flatMap_map]
    rfl
  rw [pieces, htext]
  apply List.splitOn_intercalate
  · intro piece hpiece
    simp only [List.mem_cons, List.mem_map] at hpiece
    rcases hpiece with rfl | rfl | ⟨s, hs, rfl⟩
    · exact List.not_mem_nil
    · decide
    · exact h s hs
  · exact List.cons_ne_nil _ _

/-- **A user may create the paths below the inbox, with no segment empty.** -/
theorem isUserPath_iff : p.isUserPath = true ↔
    ∃ segments, segments ≠ [] ∧ (∀ s ∈ segments, IsSegment s) ∧ p = inbox.descend segments := by
  constructor
  · intro h
    unfold isUserPath at h
    split at h
    · rename_i first segment rest hpieces
      rw [Bool.and_eq_true, beq_iff_eq] at h
      obtain ⟨rfl, hall⟩ := h
      refine ⟨(segment :: rest).map String.ofList, by simp, ?_, ?_⟩
      · intro s hs
        obtain ⟨piece, hpiece, rfl⟩ := List.mem_map.1 hs
        have hmem : piece ∈ p.pieces := by
          rw [hpieces]
          exact List.mem_cons_of_mem _ (List.mem_cons_of_mem _ hpiece)
        have hne : piece ≠ [] := by simpa using List.all_eq_true.1 hall piece hpiece
        refine ⟨by simpa [String.ext_iff] using hne, ?_⟩
        rw [String.toList_ofList]
        exact Text.notMem_of_mem_splitOn hmem
      · apply Path.ext
        apply String.toList_inj.1
        rw [toList_descend, toList_eq_intercalate, hpieces, intercalate_cons, List.flatMap_cons,
          List.flatMap_map]
        simp [slash, inbox]
    · cases h
  · rintro ⟨segments, hne, hall, rfl⟩
    rw [isUserPath, pieces_descend fun s hs => (hall s hs).2]
    cases segments with
    | nil => exact absurd rfl hne
    | cons s segments =>
      show (true && _) = true
      rw [Bool.true_and, ← List.map_cons, List.all_eq_true]
      intro piece hpiece
      obtain ⟨s', hs', rfl⟩ := List.mem_map.1 hpiece
      have hne' : s'.toList ≠ [] := fun h => (hall s' hs').1 (String.toList_eq_nil_iff.1 h)
      simpa using hne'

/-! ## Ancestors -/

theorem ancestors_of_none (h : p.parent? = none) : p.ancestors = [] := by
  rw [ancestors]
  split
  · rfl
  · rename_i hsome
    rw [h] at hsome
    cases hsome

theorem ancestors_of_some (h : p.parent? = some q) : p.ancestors = q :: q.ancestors := by
  rw [ancestors]
  split
  · rename_i hnone
    rw [h] at hnone
    cases hnone
  · rename_i hsome
    rw [h] at hsome
    rw [Option.some.inj hsome]

theorem ancestors_root : root.ancestors = [] := ancestors_of_none (if_pos rfl)

end SortingOffice.Path
