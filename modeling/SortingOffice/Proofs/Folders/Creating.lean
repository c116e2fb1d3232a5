import SortingOffice.Proofs.Folders.Links
import SortingOffice.Proofs.Path.Ancestry

/-!
# Which folders can be created

A request for a new folder is checked in three steps: the path by itself, then its parent, then the
path among the folders that are there. In a tree that hangs together these come down to one
question, namely whether the path is an existing folder with one segment more.

* `Path.descend_ne_root` and the like: what is not below the inbox.
* **`WellFormed.parentForNew_eq_ok_iff`**: when a folder can be created.
* `HasPlace`, `parentForNew_eq_error`, **`WellFormed.parentForNew_eq_exists_iff`**: what is wrong
  otherwise.
* `IsGrown`, **`isGrown_link`**: what a new folder changes.
* **`create_run_initial`**: all of this behind any requests to a new tree.
-/

namespace SortingOffice

namespace Path

variable {p : Path} {segments : List String}

theorem descend_ne_root (segments : List String) : inbox.descend segments ≠ root := by
  intro h
  have hlist := congrArg (fun p => p.text.toList) h
  rw [toList_descend] at hlist
  exact absurd hlist (by simp [inbox, root])

theorem descend_ne_sent (segments : List String) : inbox.descend segments ≠ sent := by
  intro h
  have hlist := congrArg (fun p => p.text.toList) h
  rw [toList_descend] at hlist
  exact absurd hlist (by simp [inbox, sent])

theorem descend_ne_inbox (h : segments ≠ []) : inbox.descend segments ≠ inbox := by
  intro heq
  have hlist := congrArg (fun p => p.text.toList) heq
  rw [toList_descend] at hlist
  obtain ⟨s, segments, rfl⟩ := List.exists_cons_of_ne_nil h
  exact absurd hlist (by simp)

end Path

namespace FolderTree

variable {t t' : FolderTree} {p q parent : Path}

/-! ## When a folder can be created -/

/-- All folders but the root and the one for sent mail are the inbox or below it. -/
theorem WellFormed.exists_descend (ht : t.WellFormed) (hq : t.contains q = true)
    (hroot : q ≠ .root) (hsent : q ≠ .sent) :
    ∃ segments, (∀ s ∈ segments, Path.IsSegment s) ∧ q = Path.inbox.descend segments := by
  rcases ht.path hq with rfl | rfl | rfl | ⟨segments, -, hall, rfl⟩
  · exact absurd rfl hroot
  · exact ⟨[], List.forall_mem_nil _, rfl⟩
  · exact absurd rfl hsent
  · exact ⟨segments, hall, rfl⟩

/-- **A folder can be created exactly if its path is that of a folder with one segment more**, and
it is not there yet. That folder is neither the root nor the one for sent mail. -/
theorem WellFormed.parentForNew_eq_ok_iff (ht : t.WellFormed) : t.parentForNew p = .ok q ↔
    (∃ n, p = q.child n ∧ Path.IsSegment n) ∧ t.contains q = true ∧ q ≠ .root ∧ q ≠ .sent ∧
      t.contains p = false := by
  rw [parentForNew_eq_ok]
  constructor
  · rintro ⟨huser, hparent, hq, hp⟩
    obtain ⟨segments, hne, hall, rfl⟩ := Path.isUserPath_iff.1 huser
    obtain ⟨front, last, rfl⟩ := (List.eq_nil_or_concat' segments).resolve_left hne
    have hlast : Path.IsSegment last := hall last (by simp)
    rw [Path.parent?_descend_concat hlast.2, Option.some_inj] at hparent
    obtain rfl := hparent
    exact ⟨⟨last, Path.descend_concat _ _ _, hlast⟩, hq, Path.descend_ne_root front,
      Path.descend_ne_sent front, hp⟩
  · rintro ⟨⟨n, rfl, hn⟩, hq, hroot, hsent, hp⟩
    obtain ⟨segments, hall, rfl⟩ := ht.exists_descend hq hroot hsent
    have hall' : ∀ s ∈ segments ++ [n], Path.IsSegment s := by
      intro s hs
      rcases List.mem_append.1 hs with hs | hs
      · exact hall s hs
      · rw [List.mem_singleton.1 hs]
        exact hn
    rw [← Path.descend_concat] at hp ⊢
    exact ⟨Path.isUserPath_iff.2 ⟨segments ++ [n], by simp, hall', rfl⟩,
      Path.parent?_descend_concat hn.2, hq, hp⟩

/-- A path that a user may create, with a parent that exists. -/
def HasPlace (t : FolderTree) (p : Path) : Prop :=
  p.isUserPath = true ∧ ∃ q, p.parent? = some q ∧ t.contains q = true

/-- What can be wrong with a new folder. -/
theorem parentForNew_eq_error {fault : Fault} : t.parentForNew p = .error fault ↔
    (¬ t.HasPlace p ∧ fault = .invalidPath p) ∨
      (t.HasPlace p ∧ t.contains p = true ∧ fault = .folderExists p) := by
  rw [parentForNew, Path.checked, HasPlace]
  by_cases huser : p.isUserPath = true
  · simp only [huser, if_true, true_and]
    cases hfilter : p.parent?.filter t.contains with
    | none =>
      have hnone : ¬ ∃ q, p.parent? = some q ∧ t.contains q = true := by
        rintro ⟨q, hq, hcontains⟩
        rw [hq, Option.filter_some, if_pos hcontains] at hfilter
        cases hfilter
      simp [hnone, eq_comm (a := Fault.invalidPath p)]
    | some q =>
      have hsome : ∃ q, p.parent? = some q ∧ t.contains q = true :=
        ⟨q, Option.filter_eq_some_iff.1 hfilter⟩
      simp only [hsome, not_true, false_and, false_or, true_and]
      cases t.contains p <;> simp [eq_comm (a := Fault.folderExists p)]
  · simp [huser, eq_comm (a := Fault.invalidPath p)]

/-- A folder that exists has a place for its path, unless it is one of the three that are always
there. -/
theorem WellFormed.hasPlace_iff_of_contains (ht : t.WellFormed) (hp : t.contains p = true) :
    t.HasPlace p ↔ p ≠ .root ∧ p ≠ .inbox ∧ p ≠ .sent := by
  constructor
  · rintro ⟨huser, -⟩
    obtain ⟨segments, hne, -, rfl⟩ := Path.isUserPath_iff.1 huser
    exact ⟨Path.descend_ne_root segments, Path.descend_ne_inbox hne, Path.descend_ne_sent segments⟩
  · rintro ⟨hroot, hinbox, hsent⟩
    obtain ⟨q, -, hpath, hq⟩ := ht.parent hp hroot
    have huser := (((ht.path hp).resolve_left hroot).resolve_left hinbox).resolve_left hsent
    exact ⟨Path.isUserPath_iff.2 huser, q, hpath, hq⟩

/-- **A folder is refused as existing exactly if it exists and is none of the three that are always
there.** -/
theorem WellFormed.parentForNew_eq_exists_iff (ht : t.WellFormed) :
    t.parentForNew p = .error (.folderExists p) ↔
      t.contains p = true ∧ p ≠ .root ∧ p ≠ .inbox ∧ p ≠ .sent := by
  rw [parentForNew_eq_error]
  simp only [reduceCtorEq, and_false, false_or, and_true]
  rw [and_comm]
  exact and_congr_right fun hp => ht.hasPlace_iff_of_contains hp

/-! ## What a new folder changes -/

/-- `t'` is the tree `t` with an empty folder at `p` below the one at `q`. -/
structure IsGrown (t : FolderTree) (p q : Path) (t' : FolderTree) : Prop where
  contains : ∀ s, t'.contains s = true ↔ s = p ∨ t.contains s = true
  new : t'.find p = .ok ⟨some q, ∅, ∅⟩
  parent : ∃ f, t.find q = .ok f ∧ t'.find q = .ok { f with children := f.children.insert p }
  others : ∀ s, s ≠ p → s ≠ q → t'.find s = t.find s

theorem find_link (t : FolderTree) (p parent q : Path) :
    (t.link p parent).find q = if q = p then .ok (.under (some parent))
      else if q = parent then (t.find q).map (·.addChild p) else t.find q := by
  rw [find, getElem?_link, find]
  split_ifs
  · rfl
  · cases t.folders[q]? <;> rfl
  · rfl

/-- **A new folder is empty and below its parent, and nothing else is different.** -/
theorem isGrown_link (hp : t.contains p = false) (hq : t.contains q = true) :
    t.IsGrown p q (t.link p q) := by
  refine ⟨?_, ?_, ?_, ?_⟩
  · intro s
    rw [contains_link, Bool.or_eq_true, decide_eq_true_iff]
  · rw [find_link, if_pos rfl, Folder.under]
  · obtain ⟨f, hf⟩ := exists_find_iff.2 hq
    refine ⟨f, hf, ?_⟩
    rw [find_link, if_neg (ne_of_contains hp hq), if_pos rfl, hf]
    rfl
  · intro s hsp hsq
    rw [find_link, if_neg hsp, if_neg hsq]

/-! ## Behind any requests -/

theorem create_of_ok (h : t.parentForNew p = .ok q) : t.create p = ⟨.ok p, t.link p q⟩ := by
  rw [create, h, Outcome.guarded_ok]

theorem create_of_error {fault : Fault} (h : t.parentForNew p = .error fault) :
    t.create p = ⟨.error fault, t⟩ := by
  rw [create, h, Outcome.guarded_error]

/-- **Which folders can be created.** Behind any requests to a new tree: a folder can be created
exactly if its path is that of an existing folder with one segment more, and it is not there yet; the
existing folder is neither the root nor the one for sent mail. It is refused as existing exactly if
it is there and is none of the three that are always there, and as an invalid path in every other
case. A new folder is empty and among the children of its parent, and nothing else is different; and
nothing is different if it is refused. -/
theorem create_run_initial (qs : List Request) (p : Path) :
    let t := initial.run qs
    let out := t.create p
    (out.answer = .ok p ↔ ∃ q n, p = q.child n ∧ Path.IsSegment n ∧ t.contains q = true ∧
      q ≠ .root ∧ q ≠ .sent ∧ t.contains p = false) ∧
    (out.answer = .error (.folderExists p) ↔
      t.contains p = true ∧ p ≠ .root ∧ p ≠ .inbox ∧ p ≠ .sent) ∧
    (out.answer = .ok p ∨ out.answer = .error (.folderExists p) ∨
      out.answer = .error (.invalidPath p)) ∧
    (∀ q n, p = q.child n → Path.IsSegment n → out.answer = .ok p → t.IsGrown p q out.state) ∧
    ∀ fault, out.answer = .error fault → out.state = t := by
  intro t out
  have ht : t.WellFormed := wellFormed_initial.run qs
  cases hnew : t.parentForNew p with
  | ok q =>
    have hout : out = ⟨.ok p, t.link p q⟩ := create_of_ok hnew
    obtain ⟨⟨n, hpath, hn⟩, hq, hroot, hsent, hp⟩ := ht.parentForNew_eq_ok_iff.1 hnew
    rw [hout]
    refine ⟨?_, ?_, .inl rfl, ?_, ?_⟩
    · exact iff_of_true rfl ⟨q, n, hpath, hn, hq, hroot, hsent, hp⟩
    · simp [hp]
    · rintro q' n' hpath' hn' -
      obtain rfl : q' = q := Path.eq_of_child_eq_child hn'.2 hn.2 (hpath'.symm.trans hpath)
      exact isGrown_link hp hq
    · intro fault h
      cases h
  | error fault =>
    have hout : out = ⟨.error fault, t⟩ := create_of_error hnew
    have hfree : ¬ ∃ q n, p = q.child n ∧ Path.IsSegment n ∧ t.contains q = true ∧
        q ≠ .root ∧ q ≠ .sent ∧ t.contains p = false := by
      rintro ⟨q, n, hpath, hn, hq, hroot, hsent, hp⟩
      rw [ht.parentForNew_eq_ok_iff.2 ⟨⟨n, hpath, hn⟩, hq, hroot, hsent, hp⟩] at hnew
      cases hnew
    rw [hout]
    refine ⟨?_, ?_, ?_, ?_, fun _ _ => rfl⟩
    · exact iff_of_false nofun hfree
    · rw [← ht.parentForNew_eq_exists_iff, hnew]
    · rcases parentForNew_eq_error.1 hnew with ⟨-, rfl⟩ | ⟨-, -, rfl⟩
      · exact .inr (.inr rfl)
      · exact .inr (.inl rfl)
    · intro q n _ _ h
      cases h

end FolderTree

end SortingOffice
