import Mathlib.Data.List.Chain
import SortingOffice.Proofs.Folders.Holding
import SortingOffice.Proofs.Path.Grammar

/-!
# How folders hang together

A tree says twice which folder is below which: each folder has its parent, and it is among the
children of that. Both are kept in one flat table, and new folders, missing folders and mails are
written into it without a look at the other entries.

* `FolderTree.Request`, `FolderTree.step`, `FolderTree.run`: what a tree can be asked for, and the
  tree behind one request or several.
* `FolderTree.links`: a tree without its mails, with `links_link` and its like for what each
  operation does to it; `ext_links`: the rest of a tree is what its folders hold.
* `FolderTree.Linked`, **`Linked.link`**: parents and children agree, and a new folder keeps that.
* `FolderTree.WellFormed`, **`WellFormed.run`**: besides, the folders are those that are always
  there and some that users may create.
* `FolderTree.IsWay`, **`Linked.isWay_iff`**: there is one way down to each folder.
* **`wellFormed_run_initial`**: all of this behind any requests to a new tree.
-/

namespace SortingOffice

namespace FolderTree

/-- What a tree can be asked for. -/
inductive Request
  | create (p : Path)
  | file (p : Path) (m : Mail)
  | fileInbox (m : Mail)
  | fileSent (m : Mail)
  | clearInbox (r : Rule)

/-- The tree behind a request, whether it fails or not. -/
def step (t : FolderTree) : Request → FolderTree
  | .create p => (t.create p).state
  | .file p m => (t.file p m).state
  | .fileInbox m => t.putMail .inbox m
  | .fileSent m => t.putMail .sent m
  | .clearInbox r => (t.clearInbox r).state

/-- The tree behind a sequence of requests. -/
def run (t : FolderTree) (qs : List Request) : FolderTree := qs.foldl step t

/-- The parent and the children of the folder at a path, if there is one. -/
def links (t : FolderTree) (p : Path) : Option (Option Path × Paths) :=
  t.folders[p]?.map fun f => (f.parent, f.children)

/-- The root has no parent, and each other folder has the parent that its path says, which exists.
The children of a folder are those that have it as their parent. -/
structure Linked (t : FolderTree) : Prop where
  root : t.parent .root = .ok none
  parent : ∀ {p}, t.contains p = true → p ≠ .root →
    ∃ q, t.parent p = .ok (some q) ∧ p.parent? = some q ∧ t.contains q = true
  children : ∀ {p cs}, t.children p = .ok cs → ∀ q, q ∈ cs ↔ t.parent q = .ok (some p)

/-- Besides the folders that are always there, all folders are below the inbox. -/
structure WellFormed (t : FolderTree) : Prop extends t.Linked where
  inbox : t.contains .inbox = true
  sent : t.contains .sent = true
  path : ∀ {p}, t.contains p = true → p = .root ∨ p = .inbox ∨ p = .sent ∨
    ∃ segments, segments ≠ [] ∧ (∀ s ∈ segments, Path.IsSegment s) ∧ p = Path.inbox.descend segments

variable {t t' : FolderTree} {p q parent : Path} {cs : Paths} {m : Mail} {r : Rule}

@[simp] theorem run_nil (t : FolderTree) : t.run [] = t := rfl

theorem run_append (t : FolderTree) (qs qs' : List Request) :
    t.run (qs ++ qs') = (t.run qs).run qs' := List.foldl_append

/-! ## A tree without its mails -/

theorem contains_eq_links (t : FolderTree) (p : Path) : t.contains p = (t.links p).isSome := by
  rw [contains_eq_isSome, links, Option.isSome_map]

theorem parent_eq_links (t : FolderTree) (p : Path) : t.parent p =
    match t.links p with
    | none => .error (.folderNotFound p)
    | some l => .ok l.1 := by
  rw [FolderTree.parent, links, find]
  cases t.folders[p]? <;> rfl

theorem children_eq_links (t : FolderTree) (p : Path) : t.children p =
    match t.links p with
    | none => .error (.folderNotFound p)
    | some l => .ok l.2 := by
  rw [FolderTree.children, links, find]
  cases t.folders[p]? <;> rfl

theorem contains_congr (h : t'.links p = t.links p) : t'.contains p = t.contains p := by
  rw [contains_eq_links, h, contains_eq_links]

theorem parent_congr (h : t'.links p = t.links p) : t'.parent p = t.parent p := by
  rw [parent_eq_links, h, parent_eq_links]

theorem children_congr (h : t'.links p = t.links p) : t'.children p = t.children p := by
  rw [children_eq_links, h, children_eq_links]

/-- A tree is its links and what its folders hold. -/
theorem ext_links (hlinks : ∀ p, t.links p = t'.links p)
    (hholds : ∀ p m, t.Holds p m ↔ t'.Holds p m) : t = t' := by
  apply ext_getElem?
  intro p
  have hlink := hlinks p
  have hmails := hholds p
  simp only [links] at hlink
  simp only [holds_iff] at hmails
  cases hf : t.folders[p]? with
  | none =>
    rw [hf] at hlink
    exact (Option.map_eq_none_iff.1 hlink.symm).symm
  | some f =>
    rw [hf, Option.map_some] at hlink
    obtain ⟨f', hf', hff'⟩ := Option.map_eq_some_iff.1 hlink.symm
    obtain ⟨hparent, hchildren⟩ := Prod.mk.inj hff'
    have hmem : f.mails = f'.mails := by
      apply Std.ExtTreeSet.ext_mem
      intro m
      simpa [hf, hf'] using hmails m
    rw [hf', Option.some_inj]
    cases f
    cases f'
    simp_all

theorem links_rootOnly (q : Path) :
    rootOnly.links q = if q = .root then some (none, ∅) else none := by
  rw [links, rootOnly, Std.ExtTreeMap.getElem?_insert]
  simp only [Std.LawfulEqCmp.compare_eq_iff_eq, eq_comm (a := Path.root)]
  split_ifs <;> rfl

theorem links_link (t : FolderTree) (p parent q : Path) :
    (t.link p parent).links q = if q = p then some (some parent, ∅)
      else if q = parent then (t.links q).map fun l => (l.1, l.2.insert p) else t.links q := by
  rw [links, getElem?_link, links]
  split_ifs
  · rfl
  · rw [Option.map_map, Option.map_map]
    rfl
  · rfl

theorem children_link (t : FolderTree) (p parent q : Path) :
    (t.link p parent).children q = if q = p then .ok ∅
      else if q = parent then (t.children q).map (·.insert p) else t.children q := by
  rw [children_eq_links, links_link, children_eq_links]
  split_ifs
  · rfl
  · cases t.links q <;> rfl
  · rfl

theorem links_putMail (h : t.contains p = true) (m : Mail) (q : Path) :
    (t.putMail p m).links q = t.links q := by
  obtain ⟨f, hf⟩ := contains_iff.1 h
  rw [links, getElem?_putMail, links]
  split_ifs with hq
  · rw [hq, hf]
    rfl
  · rfl

theorem links_withoutMatching (h : t.contains .inbox = true) (r : Rule) (q : Path) :
    (t.withoutMatching r).links q = t.links q := by
  obtain ⟨f, hf⟩ := contains_iff.1 h
  rw [links, getElem?_withoutMatching, links]
  split_ifs with hq
  · rw [hq, hf]
    rfl
  · rfl

theorem links_putMails (t : FolderTree) (p : Path) (ms : Mails) (q : Path) :
    (t.putMails p ms).links q = t.links q := by
  rw [links, getElem?_putMails, links]
  split_ifs
  · rw [Option.map_map]
    rfl
  · rfl

theorem links_cleared (h : t.contains .inbox = true) (r : Rule) (q : Path) :
    (t.cleared r).links q = t.links q := by
  rw [cleared]
  split_ifs
  · rfl
  · rw [links_putMails, links_withoutMatching h]

/-! ## Parents and children -/

theorem contains_of_parent {x : Option Path} (h : t.parent p = .ok x) : t.contains p = true := by
  rw [parent_eq_links] at h
  rw [contains_eq_links]
  cases hl : t.links p with
  | none => rw [hl] at h; cases h
  | some l => rfl

theorem Linked.contains_parent (ht : t.Linked) (h : t.parent p = .ok (some q)) :
    t.contains q = true := by
  have hp : p ≠ .root := by
    rintro rfl
    rw [ht.root] at h
    cases h
  obtain ⟨q', hq', -, hcontains⟩ := ht.parent (contains_of_parent h) hp
  rw [h] at hq'
  obtain rfl := Option.some.inj (Except.ok.inj hq')
  exact hcontains

theorem exists_children (h : t.contains p = true) : ∃ cs, t.children p = .ok cs := by
  rw [contains_eq_links, Option.isSome_iff_exists] at h
  obtain ⟨l, hl⟩ := h
  exact ⟨l.2, by rw [children_eq_links, hl]⟩

/-- The children of a folder are the folders whose parent it is. -/
theorem Linked.mem_children_iff (ht : t.Linked) :
    (∃ cs, t.children p = .ok cs ∧ q ∈ cs) ↔ t.parent q = .ok (some p) := by
  constructor
  · rintro ⟨cs, hcs, hq⟩
    exact (ht.children hcs q).1 hq
  · intro h
    obtain ⟨cs, hcs⟩ := exists_children (ht.contains_parent h)
    exact ⟨cs, hcs, (ht.children hcs q).2 h⟩

/-- Whether a tree is linked does not depend on its mails. -/
theorem Linked.congr (ht : t.Linked) (h : ∀ p, t'.links p = t.links p) : t'.Linked := by
  refine ⟨?_, ?_, ?_⟩
  · rw [parent_congr (h _), ht.root]
  · intro p hp hroot
    rw [contains_congr (h p)] at hp
    obtain ⟨q, hq, hpath, hcq⟩ := ht.parent hp hroot
    exact ⟨q, by rw [parent_congr (h p), hq], hpath, by rw [contains_congr (h q), hcq]⟩
  · intro p cs hcs q
    rw [children_congr (h p)] at hcs
    rw [parent_congr (h q), ht.children hcs]

theorem linked_rootOnly : rootOnly.Linked := by
  have hparent (q x) (h : rootOnly.parent q = .ok x) : q = .root ∧ x = none := by
    rw [parent_eq_links, links_rootOnly] at h
    split_ifs at h with hq
    exact ⟨hq, (Except.ok.inj h).symm⟩
  refine ⟨?_, ?_, ?_⟩
  · rw [parent_eq_links, links_rootOnly, if_pos rfl]
  · intro p hp hroot
    rw [contains_eq_links, links_rootOnly, if_neg hroot] at hp
    cases hp
  · intro p cs hcs q
    rw [children_eq_links, links_rootOnly] at hcs
    split_ifs at hcs
    obtain rfl := Except.ok.inj hcs
    constructor
    · intro hq
      simp at hq
    · intro hq
      exact nomatch (hparent q _ hq).2

theorem ne_of_contains (hp : t.contains p = false) (hq : t.contains q = true) : q ≠ p := by
  rintro rfl
  rw [hp] at hq
  cases hq

/-- The children behind a new folder: the new folder is nobody's parent, it is a child of its own
parent, and the other folders have the children they had. -/
theorem Linked.mem_children_link (ht : t.Linked) (hp : t.contains p = false)
    (hparent : t.contains parent = true) (hcs : (t.link p parent).children q = .ok cs) (s : Path) :
    s ∈ cs ↔ (t.link p parent).parent s = .ok (some q) := by
  have hne : parent ≠ p := ne_of_contains hp hparent
  have hnew (s : Path) : t.parent s ≠ .ok (some p) := fun h =>
    absurd rfl (ne_of_contains hp (ht.contains_parent h))
  have hold : t.parent p ≠ .ok (some q) := fun h =>
    absurd rfl (ne_of_contains hp (contains_of_parent h))
  rw [children_link] at hcs
  rw [parent_link]
  split_ifs at hcs with hqp hqparent
  · obtain rfl := Except.ok.inj hcs
    by_cases hs : s = p
    · simp [hs, hqp, hne]
    · simp [hs, hqp, hnew s]
  · obtain ⟨cs₀, hcs₀⟩ := exists_children (hqparent ▸ hparent)
    rw [hcs₀] at hcs
    obtain rfl := Except.ok.inj hcs
    rw [Std.ExtTreeSet.mem_insert, Std.LawfulEqCmp.compare_eq_iff_eq, ht.children hcs₀ s]
    by_cases hs : s = p
    · simp [hs, hqparent]
    · simp [hs, Ne.symm hs]
  · rw [ht.children hcs s]
    by_cases hs : s = p
    · simp [hs, hold, Ne.symm hqparent]
    · rw [if_neg hs]

/-- **A new folder keeps parents and children in step.** -/
theorem Linked.link (ht : t.Linked) (hp : t.contains p = false) (hparent : t.contains parent = true)
    (hpath : p.parent? = some parent) : (t.link p parent).Linked := by
  have hroot : Path.root ≠ p := ne_of_contains hp (contains_of_parent ht.root)
  refine ⟨?_, ?_, fun hcs => ht.mem_children_link hp hparent hcs⟩
  · rw [parent_link, if_neg hroot, ht.root]
  · intro q hq hqroot
    rw [contains_link, Bool.or_eq_true, decide_eq_true_iff] at hq
    rw [parent_link]
    by_cases hqp : q = p
    · refine ⟨parent, if_pos hqp, ?_, ?_⟩
      · rw [hqp, hpath]
      · rw [contains_link, hparent, Bool.or_true]
    · obtain ⟨q', hq', hpath', hcontains⟩ := ht.parent (hq.resolve_left hqp) hqroot
      refine ⟨q', ?_, hpath', ?_⟩
      · rw [if_neg hqp, hq']
      · rw [contains_link, hcontains, Bool.or_true]

/-! ## The folders that exist -/

theorem contains_initial : initial.contains p = true ↔ p = .root ∨ p = .inbox ∨ p = .sent := by
  rw [initial, contains_link, contains_link, contains_eq_links, links_rootOnly]
  by_cases hroot : p = .root <;> simp [hroot, or_comm]

theorem wellFormed_initial : initial.WellFormed where
  toLinked := by
    have hinbox : (rootOnly.link .inbox .root).Linked :=
      linked_rootOnly.link (by decide +kernel) (by decide +kernel) (by decide +kernel)
    exact hinbox.link (by decide +kernel) (by decide +kernel) (by decide +kernel)
  inbox := contains_initial.2 (.inr (.inl rfl))
  sent := contains_initial.2 (.inr (.inr rfl))
  path h := by
    rcases contains_initial.1 h with h | h | h
    · exact .inl h
    · exact .inr (.inl h)
    · exact .inr (.inr (.inl h))

theorem WellFormed.congr (ht : t.WellFormed) (h : ∀ p, t'.links p = t.links p) :
    t'.WellFormed := by
  refine ⟨ht.toLinked.congr h, ?_, ?_, ?_⟩
  · rw [contains_congr (h _), ht.inbox]
  · rw [contains_congr (h _), ht.sent]
  · intro p hp
    rw [contains_congr (h p)] at hp
    exact ht.path hp

theorem WellFormed.create (ht : t.WellFormed) (p : Path) : (t.create p).state.WellFormed := by
  rw [FolderTree.create]
  cases hnew : t.parentForNew p with
  | error fault => exact ht
  | ok parent =>
    obtain ⟨huser, hpath, hparent, hp⟩ := parentForNew_eq_ok.1 hnew
    show (t.link p parent).WellFormed
    refine ⟨ht.toLinked.link hp hparent hpath, ?_, ?_, ?_⟩
    · rw [contains_link, ht.inbox, Bool.or_true]
    · rw [contains_link, ht.sent, Bool.or_true]
    · intro q hq
      rw [contains_link, Bool.or_eq_true, decide_eq_true_iff] at hq
      rcases hq with rfl | hq
      · exact .inr (.inr (.inr (Path.isUserPath_iff.1 huser)))
      · exact ht.path hq

/-- A mail that is filed changes no folder besides what it holds. -/
theorem WellFormed.file (ht : t.WellFormed) (p : Path) (m : Mail) :
    (t.file p m).state.WellFormed := by
  rw [FolderTree.file]
  cases hfind : t.find p with
  | error fault => exact ht
  | ok f => exact ht.congr (links_putMail (exists_find_iff.1 ⟨f, hfind⟩) m)

theorem WellFormed.clearInbox (ht : t.WellFormed) (r : Rule) :
    (t.clearInbox r).state.WellFormed := by
  cases hfind : t.find r.folder with
  | error fault =>
    rw [FolderTree.clearInbox, hfind]
    exact ht
  | ok f =>
    rw [clearInbox_eq_ok (exists_find_iff.1 ⟨f, hfind⟩)]
    exact ht.congr (links_cleared ht.inbox r)

theorem WellFormed.step (ht : t.WellFormed) (q : Request) : (t.step q).WellFormed := by
  cases q with
  | create p => exact ht.create p
  | file p m => exact ht.file p m
  | fileInbox m => exact ht.congr (links_putMail ht.inbox m)
  | fileSent m => exact ht.congr (links_putMail ht.sent m)
  | clearInbox r => exact ht.clearInbox r

/-- **A tree stays well-formed whatever it is asked for.** -/
theorem WellFormed.run (ht : t.WellFormed) (qs : List Request) : (t.run qs).WellFormed := by
  induction qs generalizing t with
  | nil => exact ht
  | cons q qs ih => exact ih (ht.step q)

/-! ## Ways down -/

/-- A way goes from the root down to `p`, each time to a child. -/
structure IsWay (t : FolderTree) (way : List Path) (p : Path) : Prop where
  starts : way.head? = some .root
  ends : way.getLast? = some p
  descends : way.IsChain fun q q' => ∃ cs, t.children q = .ok cs ∧ q' ∈ cs

/-- Going up from parent to parent leads along the ancestors. -/
theorem Linked.climb_iff (ht : t.Linked) (hp : t.contains p = true) {rest : List Path} :
    (p :: rest).IsChain (fun q q' => t.parent q = .ok (some q')) ∧
      (p :: rest).getLast? = some .root ↔ rest = p.ancestors := by
  induction rest generalizing p with
  | nil =>
    rcases eq_or_ne p .root with rfl | hroot
    · simp [Path.ancestors_root]
    · obtain ⟨q, -, hpath, -⟩ := ht.parent hp hroot
      simp [Path.ancestors_of_some hpath, hroot]
  | cons q rest ih =>
    rw [List.isChain_cons_cons, List.getLast?_cons_cons, and_assoc]
    rcases eq_or_ne p .root with rfl | hroot
    · simp [Path.ancestors_root, ht.root]
    · obtain ⟨q', hq', hpath, hcontains⟩ := ht.parent hp hroot
      rw [Path.ancestors_of_some hpath, hq', Except.ok.injEq, Option.some.injEq, List.cons.injEq]
      constructor
      · rintro ⟨rfl, hrest⟩
        exact ⟨rfl, (ih hcontains).1 hrest⟩
      · rintro ⟨rfl, hrest⟩
        exact ⟨rfl, (ih hcontains).2 hrest⟩

/-- **There is exactly one way down to each folder.** -/
theorem Linked.isWay_iff (ht : t.Linked) (hp : t.contains p = true) {way : List Path} :
    t.IsWay way p ↔ way = (p :: p.ancestors).reverse := by
  have hup : way.IsChain (fun q q' => ∃ cs, t.children q = .ok cs ∧ q' ∈ cs) ↔
      way.reverse.IsChain fun q q' => t.parent q = .ok (some q') := by
    rw [List.isChain_reverse]
    simp only [ht.mem_children_iff]
  constructor
  · rintro ⟨hstart, hend, hdown⟩
    obtain ⟨rest, hrest⟩ : ∃ rest, way.reverse = p :: rest := by
      rw [← List.head?_eq_some_iff, List.head?_reverse, hend]
    have hlast : (p :: rest).getLast? = some .root := by
      rw [← hrest, List.getLast?_reverse, hstart]
    rw [hup, hrest] at hdown
    rw [← (ht.climb_iff hp).1 ⟨hdown, hlast⟩, ← hrest, List.reverse_reverse]
  · rintro rfl
    obtain ⟨hclimb, hlast⟩ := (ht.climb_iff hp).2 rfl
    refine ⟨?_, ?_, ?_⟩
    · rw [List.head?_reverse, hlast]
    · rw [List.getLast?_reverse, List.head?_cons]
    · rw [hup, List.reverse_reverse]
      exact hclimb

/-! ## Behind any requests -/

theorem ordered_paths (t : FolderTree) : t.paths.Pairwise fun p q => compare p q = .lt :=
  Std.ExtTreeMap.ordered_keys

theorem mem_paths : p ∈ t.paths ↔ t.contains p = true := by
  rw [paths, Std.ExtTreeMap.mem_keys, ← Std.ExtTreeMap.contains_iff_mem, contains]

/-- The children of a folder as a list: the paths of the tree in their order, those with another
parent left out. -/
theorem Linked.toList_children (ht : t.Linked) (hcs : t.children p = .ok cs) :
    cs.toList = t.paths.filter fun q => t.parent q = .ok (some p) := by
  have hnodup : t.paths.Nodup := Std.ExtTreeMap.nodup_keys
  have hchildren : cs.toList.Pairwise fun q q' => compare q q' = .lt :=
    Std.ExtTreeSet.ordered_toList
  have hdistinct : cs.toList.Nodup :=
    Std.ExtTreeSet.distinct_toList.imp Std.ReflCmp.ne_of_cmp_ne_eq
  -- both lists are in order, so it is enough that the same paths are on them
  refine List.Perm.eq_of_pairwise ?_ hchildren (t.ordered_paths.filter _) ?_
  · intro q q' _ _ h h'
    exact absurd h' (Std.OrientedCmp.not_lt_of_lt h)
  · rw [List.perm_ext_iff_of_nodup hdistinct (hnodup.filter _)]
    intro q
    rw [Std.ExtTreeSet.mem_toList, ht.children hcs q, List.mem_filter, decide_eq_true_iff, mem_paths]
    exact ⟨fun h => ⟨contains_of_parent h, h⟩, And.right⟩

/-- **A tree of folders.** Behind any requests to a new tree: the root, the inbox and the folder for
sent mail are there, and all other folders are below the inbox, with no empty segment; the root has
no parent, and each other folder has the parent that its path says, which is there; the children of
a folder are the folders whose parent it is, in their order; and one way leads from the root down to
a folder, each time to a child, namely along its ancestors. -/
theorem wellFormed_run_initial (qs : List Request) :
    (initial.run qs).WellFormed ∧
    (∀ p, (initial.run qs).contains p = true → ∃ cs, (initial.run qs).children p = .ok cs ∧
      cs.toList = (initial.run qs).paths.filter fun q =>
        (initial.run qs).parent q = .ok (some p)) ∧
    ∀ p, (initial.run qs).contains p = true →
      ∀ way, (initial.run qs).IsWay way p ↔ way = (p :: p.ancestors).reverse := by
  have ht : (initial.run qs).WellFormed := wellFormed_initial.run qs
  refine ⟨ht, ?_, ?_⟩
  · intro p hp
    obtain ⟨cs, hcs⟩ := exists_children hp
    exact ⟨cs, hcs, ht.toList_children hcs⟩
  · intro p hp way
    exact ht.isWay_iff hp

end FolderTree

end SortingOffice
