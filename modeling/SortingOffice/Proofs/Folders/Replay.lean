import Mathlib.Data.List.Induction
import SortingOffice.Proofs.Folders.Creating

/-!
# Creating the folders of a tree once more

The paths of a tree are in the order of their texts, where a parent comes before its children. So
the folders that users have created can be created in this order in a new tree. What is above and
below each folder depends on the paths alone.

* **`Path.compare_of_parent?`**: a parent comes before its children.
* `Linked.parent_eq`, `Linked.children_eq`: trees with the same folders hang together in the same
  way.
* `userPaths`: the folders that users have created.
* **`WellFormed.parentForNew_replay`**, **`WellFormed.contains_replay`**: they can be created in
  their order.
-/

namespace SortingOffice

/-- **A parent comes before its children** in the order of paths, whatever characters are in them:
its text is the beginning of theirs. -/
theorem Path.compare_of_parent? {p q : Path} (h : p.parent? = some q) : compare q p = .lt := by
  have hlength := length_of_parent? h
  have hprefix : q.text.toList <+: p.text.toList := by
    unfold parent? at h
    split at h
    · cases h
    · split at h
      · cases h
      · rename_i hfront
        rw [← Option.some.inj h, toList_eq_append (p := p) (by simp [hfront]), hfront]
        exact ⟨p.lastPiece, rfl⟩
      · rename_i hne hfront
        obtain rfl := Option.some.inj h
        rw [toList_eq_append hne, ofPieces, String.toList_ofList]
        exact List.prefix_append _ _
  obtain ⟨rest, hrest⟩ := hprefix
  cases rest with
  | nil =>
    rw [List.append_nil] at hrest
    rw [← String.length_toList, ← String.length_toList, hrest] at hlength
    exact absurd hlength (Nat.lt_irrefl _)
  | cons c rest =>
    show compareOfLessAndEq q.text p.text = .lt
    rw [compareOfLessAndEq_eq_lt, String.lt_iff, ← hrest]
    have hlt : q.text.toList ++ [] < q.text.toList ++ c :: rest :=
      List.append_left_lt (List.nil_lt_cons c rest)
    rwa [List.append_nil] at hlt

namespace FolderTree

variable {t t' : FolderTree} {p q : Path} {before after : List Path}

/-! ## Trees with the same folders -/

theorem paths_congr (h : ∀ p, t'.contains p = t.contains p) : t'.paths = t.paths := by
  refine List.Perm.eq_of_pairwise ?_ t'.ordered_paths t.ordered_paths ?_
  · intro p q _ _ hlt hgt
    exact absurd hgt (Std.OrientedCmp.not_lt_of_lt hlt)
  · refine (List.perm_ext_iff_of_nodup Std.ExtTreeMap.nodup_keys Std.ExtTreeMap.nodup_keys).2 ?_
    intro p
    rw [← paths, ← paths, mem_paths, mem_paths, h]

theorem parent_of_not_contains (h : t.contains p = false) :
    t.parent p = .error (.folderNotFound p) := by
  rw [parent, find_of_not_contains h]
  rfl

theorem children_of_not_contains (h : t.contains p = false) :
    t.children p = .error (.folderNotFound p) := by
  rw [children, find_of_not_contains h]
  rfl

/-- **Parents depend on the paths alone.** -/
theorem Linked.parent_eq (ht : t.Linked) (ht' : t'.Linked)
    (h : ∀ p, t'.contains p = t.contains p) (p : Path) : t'.parent p = t.parent p := by
  cases hp : t.contains p with
  | false => rw [parent_of_not_contains hp, parent_of_not_contains ((h p).trans hp)]
  | true =>
    by_cases hroot : p = .root
    · rw [hroot, ht.root, ht'.root]
    · obtain ⟨q, hq, hpath, -⟩ := ht.parent hp hroot
      obtain ⟨q', hq', hpath', -⟩ := ht'.parent ((h p).trans hp) hroot
      rw [hq, hq', ← hpath, hpath']

/-- **Children depend on the paths alone.** -/
theorem Linked.children_eq (ht : t.Linked) (ht' : t'.Linked)
    (h : ∀ p, t'.contains p = t.contains p) (p : Path) : t'.children p = t.children p := by
  cases hp : t.contains p with
  | false => rw [children_of_not_contains hp, children_of_not_contains ((h p).trans hp)]
  | true =>
    obtain ⟨cs, hcs⟩ := exists_children hp
    obtain ⟨cs', hcs'⟩ := exists_children ((h p).trans hp)
    rw [hcs, hcs', Except.ok.injEq]
    apply Std.ExtTreeSet.ext_mem
    intro q
    rw [ht'.children hcs' q, ht.children hcs q, ht.parent_eq ht' h]

/-! ## Folders of users -/

/-- The paths of the folders that users have created, in their order. -/
def userPaths (t : FolderTree) : List Path :=
  t.paths.filter fun p => p ∉ [Path.root, .inbox, .sent]

theorem mem_userPaths :
    p ∈ t.userPaths ↔ t.contains p = true ∧ p ≠ .root ∧ p ≠ .inbox ∧ p ≠ .sent := by
  rw [userPaths, List.mem_filter, mem_paths]
  simp

theorem ordered_userPaths (t : FolderTree) :
    t.userPaths.Pairwise fun p q => compare p q = .lt := t.ordered_paths.filter _

/-- A folder whose name goes on with a blank is between a folder and the folders below that. -/
example : (initial.run (["/inbox/a", "/inbox/a/c", "/inbox/a b"].map fun p =>
    .create ⟨p⟩)).userPaths.map Path.text = ["/inbox/a", "/inbox/a b", "/inbox/a/c"] := by
  decide +kernel

theorem WellFormed.contains_iff_userPaths (ht : t.WellFormed) : t.contains p = true ↔
    initial.contains p = true ∨ p ∈ t.userPaths := by
  rw [contains_initial, mem_userPaths]
  constructor
  · intro hp
    by_cases hfixed : p = .root ∨ p = .inbox ∨ p = .sent
    · exact .inl hfixed
    · rw [not_or, not_or] at hfixed
      exact .inr ⟨hp, hfixed⟩
  · rintro ((rfl | rfl | rfl) | ⟨hp, -⟩)
    · exact contains_of_parent ht.root
    · exact ht.inbox
    · exact ht.sent
    · exact hp

/-! ## Creating them once more -/

/-- **The next folder can be created**, if those in front of it are there and no others. Its parent
is one of them. -/
theorem WellFormed.parentForNew_replay (ht : t.WellFormed) (hcut : t.userPaths = before ++ p :: after)
    (ht' : ∀ q, t'.contains q = true ↔ initial.contains q = true ∨ q ∈ before) :
    ∃ q, t'.parentForNew p = .ok q := by
  have hordered := t.ordered_userPaths
  rw [hcut, List.pairwise_append, List.pairwise_cons] at hordered
  obtain ⟨-, ⟨hafter, -⟩, hbefore⟩ := hordered
  have hp : p ∈ t.userPaths := by
    rw [hcut]
    exact List.mem_append_right before List.mem_cons_self
  obtain ⟨hcontains, hfixed⟩ := mem_userPaths.1 hp
  obtain ⟨huser, q, hparent, hq⟩ := (ht.hasPlace_iff_of_contains hcontains).2 hfixed
  have hlt : compare q p = .lt := Path.compare_of_parent? hparent
  refine ⟨q, parentForNew_eq_ok.2 ⟨huser, hparent, (ht' q).2 ?_, ?_⟩⟩
  · rcases ht.contains_iff_userPaths.1 hq with hq | hq
    · exact .inl hq
    · -- the parent is not behind its child
      rw [hcut] at hq
      rcases List.mem_append.1 hq with hq | hq
      · exact .inr hq
      · rcases List.mem_cons.1 hq with rfl | hq
        · exact absurd hlt (Std.OrientedCmp.not_lt_of_lt hlt)
        · exact absurd hlt (Std.OrientedCmp.not_lt_of_lt (hafter q hq))
  · rw [← Bool.not_eq_true, ht' p, contains_initial]
    rintro ((hroot | hinbox | hsent) | hmem)
    · exact hfixed.1 hroot
    · exact hfixed.2.1 hinbox
    · exact hfixed.2.2 hsent
    · have hself := hbefore p hmem p List.mem_cons_self
      exact absurd hself (Std.OrientedCmp.not_lt_of_lt hself)

/-- **Which folders there are when some of them have been created once more.** -/
theorem WellFormed.contains_replay (ht : t.WellFormed) (hcut : t.userPaths = before ++ after)
    (q : Path) : (initial.run (before.map .create)).contains q = true ↔
      initial.contains q = true ∨ q ∈ before := by
  induction before using List.reverseRecOn generalizing after q with
  | nil => simp
  | append_singleton before p ih =>
    rw [List.append_assoc, List.singleton_append] at hcut
    obtain ⟨parent, hparent⟩ := ht.parentForNew_replay hcut (ih hcut)
    rw [List.map_append, run_append]
    show ((initial.run (before.map .create)).create p).state.contains q = true ↔ _
    rw [FolderTree.create_of_ok hparent, contains_link, Bool.or_eq_true, decide_eq_true_iff, ih hcut,
      List.mem_append, List.mem_singleton, or_comm, or_assoc]

/-- The tree has the same folders when all of them have been created once more. -/
theorem WellFormed.contains_rebuilt (ht : t.WellFormed) (q : Path) :
    (initial.run (t.userPaths.map .create)).contains q = t.contains q := by
  have hcut : t.userPaths = t.userPaths ++ [] := (List.append_nil _).symm
  rw [Bool.eq_iff_iff, ht.contains_replay hcut, ht.contains_iff_userPaths]

end FolderTree

end SortingOffice
