import SortingOffice.FolderTree
import SortingOffice.Proofs.Path.Grammar

/-!
# From a path up to the root

Whether a user may create a path can be seen from the text: it starts with the inbox and a slash,
it does not end with a slash, and no two slashes stand side by side. Such a path is the inbox with
one segment or more behind it, and each step to the parent takes the last segment away.

* `nil_mem_splitOn_slash_iff`, **`isUserPath_iff_infix`**: empty segments, seen from the text.
* `pieces_child`, `name_child`, `eq_of_child_eq_child`, **`parent?_child`**: a path with one segment
  more.
* `ancestors_climb`, **`ancestors_descend`**: the way up from a path below the inbox.
* **`checked_grammar`**: all of this for every text.
-/

namespace SortingOffice.Path

variable {p q : Path} {segments : List String} {s : String}

/-! ## Slashes -/

theorem notMem_slashes {cs : List Char} (h : slash ∉ cs) : ∀ c ∈ cs, c ∉ [slash, slash] := by
  intro c hc hslash
  obtain rfl : c = slash := by simpa using hslash
  exact h hc

/-- An empty piece leaves two slashes side by side, if there is a slash in front of each piece and
one at the end. -/
theorem infix_flatMap_slash_iff {ps : List (List Char)} (h : ∀ piece ∈ ps, slash ∉ piece) :
    [slash, slash] <:+: ps.flatMap (slash :: ·) ++ [slash] ↔ [] ∈ ps := by
  induction ps with
  | nil => decide
  | cons piece ps ih =>
    have hrest : ∀ piece ∈ ps, slash ∉ piece := fun q hq => h q (List.mem_cons_of_mem piece hq)
    rw [List.flatMap_cons, List.append_assoc, List.cons_append]
    cases piece with
    | nil =>
      refine iff_of_true (List.IsPrefix.isInfix ?_) List.mem_cons_self
      rw [List.nil_append, List.cons_prefix_cons]
      refine ⟨rfl, ?_⟩
      cases ps <;> simp
    | cons c piece =>
      have hpiece : slash ∉ c :: piece := h _ List.mem_cons_self
      have hfront : ∀ d ∈ c :: piece, d ∉ [slash, slash] := notMem_slashes hpiece
      have hprefix : ¬ [slash, slash] <+: slash :: (c :: piece ++
          (ps.flatMap (slash :: ·) ++ [slash])) := by
        rw [List.cons_prefix_cons, List.cons_append, List.cons_prefix_cons]
        rintro ⟨-, rfl, -⟩
        exact hpiece List.mem_cons_self
      rw [List.infix_cons_iff, or_iff_right hprefix,
        Text.infix_append_left_iff hfront (List.cons_ne_nil _ _), ih hrest]
      simp

/-- A text has an empty piece if there are two slashes side by side, once there is a slash around
it. -/
theorem nil_mem_splitOn_slash_iff {cs : List Char} :
    [] ∈ cs.splitOn slash ↔ [slash, slash] <:+: slash :: cs ++ [slash] := by
  rw [← infix_flatMap_slash_iff fun _ => Text.notMem_of_mem_splitOn]
  have hcs : slash :: cs = (cs.splitOn slash).flatMap (slash :: ·) := by
    cases hsplit : cs.splitOn slash with
    | nil => exact absurd hsplit (List.splitOn_ne_nil slash cs)
    | cons first rest =>
      rw [List.flatMap_cons, List.cons_append, ← intercalate_cons, ← hsplit,
        List.intercalate_splitOn]
  rw [hcs]

/-- Neither two slashes side by side nor one at the end. -/
theorem not_infix_concat_slash_iff {cs : List Char} :
    ¬ [slash, slash] <:+: cs ++ [slash] ↔ ¬ [slash] <:+ cs ∧ ¬ [slash, slash] <:+: cs := by
  have hsuffix : [slash] ++ [slash] <:+ cs ++ [slash] ↔ [slash] <:+ cs := by
    rw [List.suffix_append_inj_of_length_eq rfl, and_iff_left rfl]
  rw [List.infix_concat_iff, ← hsuffix, not_or, List.singleton_append]

/-- Below the inbox a user may create what has no empty segment. -/
theorem isUserPath_iff_of_prefix {rest : List Char} (h : "/inbox/".toList ++ rest = p.text.toList) :
    p.isUserPath = true ↔ [] ∉ rest.splitOn slash := by
  have hpieces : p.pieces = [] :: "inbox".toList :: rest.splitOn slash := by
    rw [pieces, ← h]
    exact List.splitOn_append_cons_self (a := slash) "/inbox".toList rest
  rw [isUserPath, hpieces]
  cases hsplit : rest.splitOn slash with
  | nil => exact absurd hsplit (List.splitOn_ne_nil slash rest)
  | cons segment segments =>
    show (true && (segment :: segments).all (!·.isEmpty)) = true ↔ _
    simp only [Bool.true_and, List.all_eq_true, Bool.not_eq_true', List.isEmpty_eq_false_iff]
    exact ⟨fun hall hnil => hall [] hnil rfl, fun hnil piece hpiece h => hnil (h ▸ hpiece)⟩

theorem infix_inbox_append_iff {rest : List Char} :
    [slash, slash] <:+: "/inbox/".toList ++ rest ↔ [slash, slash] <:+: slash :: rest := by
  have hfront : ∀ c ∈ "inbox".toList, c ∉ [slash, slash] := notMem_slashes (by decide)
  show [slash, slash] <:+: slash :: ("inbox".toList ++ slash :: rest) ↔ _
  rw [List.infix_cons_iff, Text.infix_append_left_iff hfront (List.cons_ne_nil _ _)]
  refine or_iff_right ?_
  rw [List.cons_prefix_cons]
  rintro ⟨-, hprefix⟩
  exact absurd (List.cons_prefix_cons.1 hprefix).1 (by decide)

/-- **What the text of a path for users looks like.** -/
theorem isUserPath_iff_infix : p.isUserPath = true ↔
    "/inbox/".toList <+: p.text.toList ∧ ¬ "/".toList <:+ p.text.toList ∧
      ¬ "//".toList <:+: p.text.toList := by
  have hprefix : p.isUserPath = true → "/inbox/".toList <+: p.text.toList := by
    intro h
    obtain ⟨segments, hne, -, rfl⟩ := isUserPath_iff.1 h
    obtain ⟨s, segments, rfl⟩ := List.exists_cons_of_ne_nil hne
    rw [toList_descend, List.flatMap_cons]
    exact ⟨s.toList ++ segments.flatMap fun s => slash :: s.toList, rfl⟩
  rw [← and_iff_right_of_imp hprefix]
  refine and_congr_right ?_
  rintro ⟨rest, hrest⟩
  show _ ↔ ¬ [slash] <:+ p.text.toList ∧ ¬ [slash, slash] <:+: p.text.toList
  rw [← not_infix_concat_slash_iff, isUserPath_iff_of_prefix hrest, nil_mem_splitOn_slash_iff,
    ← hrest, List.append_assoc, infix_inbox_append_iff, List.cons_append]

/-! ## One segment more -/

theorem ofPieces_pieces (p : Path) : ofPieces p.pieces = p := by
  rw [ofPieces, ← toList_eq_intercalate, String.ofList_toList]

theorem pieces_child (hs : slash ∉ s.toList) : (p.child s).pieces = p.pieces ++ [s.toList] := by
  have htext : (p.child s).text.toList = p.text.toList ++ slash :: s.toList := by
    simp [child, slash]
  rw [pieces, htext, List.splitOn_append_cons_self, List.splitOn_eq_singleton hs, pieces]

/-- The name of a child is its segment. -/
theorem name_child (hs : slash ∉ s.toList) : (p.child s).name = s := by
  have hlast : (p.child s).lastPiece = s.toList := by
    simp only [lastPiece, pieces_child hs, List.getLast_append_singleton]
  rw [name, hlast, String.ofList_toList]

/-- A path can be cut at its last slash in one way. -/
theorem eq_of_child_eq_child {s' : String} (hs : slash ∉ s.toList) (hs' : slash ∉ s'.toList)
    (h : p.child s = q.child s') : p = q := by
  have hpieces := congrArg pieces h
  rw [pieces_child hs, pieces_child hs'] at hpieces
  rw [← ofPieces_pieces p, (List.append_inj' hpieces rfl).1, ofPieces_pieces]

/-- **The parent of a child.** -/
theorem parent?_child (hp : p.text ≠ "") (hs : slash ∉ s.toList) :
    (p.child s).parent? = some p := by
  have htext : p.text.toList ≠ [] := mt String.toList_eq_nil_iff.1 hp
  have hroot : p.child s ≠ root := by
    intro h
    have hlength := congrArg (fun q => q.text.toList.length) h
    have hpos := List.length_pos_iff.2 htext
    simp only [child, root, String.toList_append, List.length_append] at hlength
    simp at hlength
    omega
  have hdrop : (p.child s).pieces.dropLast = p.pieces := by
    rw [pieces_child hs, List.dropLast_concat]
  rw [parent?, if_neg hroot, hdrop]
  split
  · rename_i h
    exact absurd h p.pieces_ne_nil
  · rename_i h
    have hnil : p.text.toList = [] := by rw [toList_eq_intercalate, h]; rfl
    exact absurd hnil htext
  · rw [ofPieces_pieces]

theorem descend_concat (p : Path) (segments : List String) (s : String) :
    p.descend (segments ++ [s]) = (p.descend segments).child s := by
  rw [descend, List.foldl_concat, descend]

theorem text_descend_inbox_ne_empty (segments : List String) :
    (inbox.descend segments).text ≠ "" := by
  intro h
  have hlist := congrArg String.toList h
  rw [toList_descend] at hlist
  exact absurd hlist (by simp [inbox])

theorem parent?_descend_concat (hs : slash ∉ s.toList) :
    (inbox.descend (segments ++ [s])).parent? = some (inbox.descend segments) := by
  rw [descend_concat, parent?_child (text_descend_inbox_ne_empty segments) hs]

/-! ## The way up -/

/-- On the way up each path is followed by its parent, and the last one has none. -/
theorem ancestors_climb (p : Path) (i : Nat) :
    (p :: p.ancestors)[i]?.bind parent? = p.ancestors[i]? := by
  induction i generalizing p with
  | zero =>
    cases h : p.parent? with
    | none => simp [ancestors_of_none h, h]
    | some q => simp [ancestors_of_some h, h]
  | succ i ih =>
    cases h : p.parent? with
    | none => simp [ancestors_of_none h]
    | some q => rw [ancestors_of_some h, List.getElem?_cons_succ, List.getElem?_cons_succ, ih q]

theorem ancestors_inbox : inbox.ancestors = [root] := by
  have hparent : inbox.parent? = some root := by decide +kernel
  rw [ancestors_of_some hparent, ancestors_root]

/-- **The way up from a path below the inbox** takes one segment after the other away. -/
theorem ancestors_descend (h : ∀ s ∈ segments, slash ∉ s.toList) :
    (inbox.descend segments).ancestors =
      ((List.range segments.length).reverse.map fun i => inbox.descend (segments.take i)) ++
        [root] := by
  induction segments using List.reverseRecOn with
  | nil => exact ancestors_inbox
  | append_singleton segments s ih =>
    have hs : slash ∉ s.toList := h s (by simp)
    have hfront : ∀ s ∈ segments, slash ∉ s.toList := fun s hs =>
      h s (List.mem_append_left _ hs)
    have htake : ∀ i ∈ (List.range segments.length).reverse,
        inbox.descend ((segments ++ [s]).take i) = inbox.descend (segments.take i) := by
      intro i hi
      have hlt : i < segments.length := by simpa using hi
      rw [List.take_append_of_le_length hlt.le]
    rw [ancestors_of_some (parent?_descend_concat hs), ih hfront, List.length_append,
      List.length_singleton, List.range_succ, List.reverse_append, List.reverse_singleton,
      List.singleton_append, List.map_cons, List.take_left, List.cons_append,
      List.map_congr_left htake]

/-! ## Every text -/

theorem checked_eq_ok : p.checked = .ok q ↔ q = p ∧ p.isUserPath = true := by
  rw [checked]
  split_ifs with h
  · simp [h, eq_comm]
  · simp [h]

/-- A refused path is reported. -/
theorem checked_eq_error {fault : Fault} :
    p.checked = .error fault ↔ fault = .invalidPath p ∧ p.isUserPath = false := by
  rw [checked]
  split_ifs with h
  · simp [h]
  · simp [h, eq_comm]

/-- **Paths for users and the way up from them.** A text is accepted as a path exactly if it is the
inbox with one segment or more behind it, no segment empty or with a slash. That is the case exactly
if it starts with the inbox and a slash, does not end with a slash, and has no two slashes side by
side. Each other text is refused and reported. The accepted path has the same text. Its name is the
last segment, its parent is the path without that segment, a slash joins the two, and the parent is
the inbox or a path that is accepted too. The way up takes one segment after the other away down to
the inbox, then comes to the root, and ends. -/
theorem checked_grammar (text : String) :
    (∀ p, checked ⟨text⟩ = .ok p ↔ p.text = text ∧ ∃ segments, segments ≠ [] ∧
      (∀ s ∈ segments, IsSegment s) ∧ p = inbox.descend segments) ∧
    ((∃ p, checked ⟨text⟩ = .ok p) ↔ "/inbox/".toList <+: text.toList ∧
      ¬ "/".toList <:+ text.toList ∧ ¬ "//".toList <:+: text.toList) ∧
    (∀ fault, checked ⟨text⟩ = .error fault → fault = .invalidPath ⟨text⟩) ∧
    ∀ p front last, checked ⟨text⟩ = .ok p → (∀ s ∈ front ++ [last], IsSegment s) →
      p = inbox.descend (front ++ [last]) →
      p.name = last ∧
      (∃ parent, p.parent? = some parent ∧ p.text = parent.text ++ "/" ++ p.name ∧
        if front = [] then parent = inbox else parent.checked = .ok parent) ∧
      p.ancestors = ((List.range (front ++ [last]).length).reverse.map fun i =>
        inbox.descend ((front ++ [last]).take i)) ++ [root] ∧
      ∀ i : Nat, (p :: p.ancestors)[i]?.bind parent? = p.ancestors[i]? := by
  refine ⟨?_, ?_, ?_, ?_⟩
  · intro p
    rw [checked_eq_ok]
    constructor
    · rintro ⟨rfl, huser⟩
      exact ⟨rfl, isUserPath_iff.1 huser⟩
    · rintro ⟨rfl, hsegments⟩
      exact ⟨rfl, isUserPath_iff.2 hsegments⟩
  · simp only [checked_eq_ok, exists_eq_left, isUserPath_iff_infix]
  · intro fault h
    exact (checked_eq_error.1 h).1
  · rintro p front last - hall rfl
    have hslash : ∀ s ∈ front ++ [last], slash ∉ s.toList := fun s hs => (hall s hs).2
    have hlast : slash ∉ last.toList := hslash last (by simp)
    have hname : (inbox.descend (front ++ [last])).name = last := by
      rw [descend_concat, name_child hlast]
    refine ⟨hname, ⟨inbox.descend front, parent?_descend_concat hlast, ?_, ?_⟩,
      ancestors_descend hslash, ancestors_climb _⟩
    · rw [hname, descend_concat, child]
    · split_ifs with hfront
      · rw [hfront, descend, List.foldl_nil]
      · have hsegments : ∀ s ∈ front, IsSegment s := fun s hs =>
          hall s (List.mem_append_left _ hs)
        exact checked_eq_ok.2 ⟨rfl, isUserPath_iff.2 ⟨front, hfront, hsegments, rfl⟩⟩

end SortingOffice.Path
