/-!
# Folder paths

A path names the place of a folder by segments with a slash before each, such as
`/inbox/school/exams`. Any text can be asked for as a path. The paths that a user may create are
those with `inbox` as the first of two or more segments, none of them empty.

* `Path`: the paths, ordered as texts.
* `Path.isUserPath`: whether a user may create a folder at a path.
* `Path.parent?`, `Path.name`: the path up to the last slash, and what follows it.
* `Path.ancestors`: the parent, its parent, and so on.
-/

namespace SortingOffice

/-- The place of a folder. -/
structure Path where
  text : String
deriving DecidableEq, Repr

namespace Path

/-- The character between segments. -/
def slash : Char := '/'

/-- The path of the folder that holds all others. -/
def root : Path := ⟨"/"⟩

/-- The path of the folder for mail that arrives. -/
def inbox : Path := ⟨"/inbox"⟩

/-- The path of the folder for mail that was sent. -/
def sent : Path := ⟨"/sent"⟩

instance : ToString Path := ⟨text⟩

instance : Ord Path := ⟨compareOn text⟩

instance : Std.TransOrd Path := inferInstanceAs <| Std.TransCmp <| compareOn text

@[ext] theorem ext {p q : Path} (h : p.text = q.text) : p = q := by
  cases p; cases q; simp_all

instance : Std.LawfulEqOrd Path where
  eq_of_compare {p q} h := Path.ext <| Std.LawfulEqOrd.eq_of_compare (a := p.text) (b := q.text) h

/-! ## Segments -/

/-- The pieces of a path between its slashes. A path that starts with a slash has an empty first
piece. -/
def pieces (p : Path) : List (List Char) := p.text.toList.splitOn slash

/-- The path with the given pieces. -/
def ofPieces (pieces : List (List Char)) : Path := ⟨String.ofList ([slash].intercalate pieces)⟩

theorem pieces_ne_nil (p : Path) : p.pieces ≠ [] := List.splitOn_ne_nil slash _

/-- The characters behind the last slash, or all if there is none. -/
def lastPiece (p : Path) : List Char := p.pieces.getLast p.pieces_ne_nil

/-- What follows the last slash, or the whole path if it has none. -/
def name (p : Path) : String := String.ofList p.lastPiece

/-- The path up to its last slash, which is the root if nothing stands before that slash. The root
has no parent, and neither has a path without a slash. -/
def parent? (p : Path) : Option Path :=
  if p = root then none
  else match p.pieces.dropLast with
    | [] => none
    | [[]] => some root
    | front => some (ofPieces front)

/-- Whether a user may create a folder here: below the inbox, with no empty segment. -/
def isUserPath (p : Path) : Bool :=
  match p.pieces with
  | [] :: first :: segment :: segments =>
    first == "inbox".toList && (segment :: segments).all (!·.isEmpty)
  | _ => false

/-- The inbox itself, its neighbours and empty segments are not for users. -/
example : ["/inbox/a", "/inbox/a/b", "/inbox", "/inboxes/a", "/inbox/", "/inbox//a", "inbox/a"].map
    (fun text => (Path.mk text).isUserPath) = [true, true, false, false, false, false, false] := by
  decide +kernel

/-! ## Ancestors -/

theorem intercalate_append_singleton {front : List (List Char)} (h : front ≠ [])
    (last : List Char) :
    [slash].intercalate (front ++ [last]) = [slash].intercalate front ++ slash :: last := by
  induction front with
  | nil => exact absurd rfl h
  | cons a front ih =>
    cases front with
    | nil => simp [List.intercalate_cons_cons]
    | cons b front => simp_all [List.intercalate_cons_cons]

/-- A path is its pieces with slashes between them. -/
theorem toList_eq_intercalate (p : Path) : p.text.toList = [slash].intercalate p.pieces :=
  (List.intercalate_splitOn slash).symm

/-- A path with a slash is what stands before its last slash, that slash and the last piece. -/
theorem toList_eq_append {p : Path} (h : p.pieces.dropLast ≠ []) :
    p.text.toList = [slash].intercalate p.pieces.dropLast ++ slash :: p.lastPiece := by
  rw [toList_eq_intercalate, ← intercalate_append_singleton h, lastPiece,
    List.dropLast_concat_getLast]

/-- A parent is shorter than its child. -/
theorem length_of_parent? {p q : Path} (h : p.parent? = some q) :
    q.text.length < p.text.length := by
  unfold parent? at h
  split at h
  · cases h
  · rename_i hroot
    split at h
    · cases h
    · rename_i hfront
      cases h
      have hp := toList_eq_append (p := p) (by simp [hfront])
      rw [hfront] at hp
      have : p.lastPiece ≠ [] := by
        intro hlast
        rw [hlast] at hp
        exact hroot (Path.ext (String.toList_inj.1 hp))
      have := List.length_pos_iff.2 this
      simp only [← String.length_toList, hp]
      simpa [root] using this
    · rename_i hne hfront
      cases h
      have hp := toList_eq_append (p := p) hne
      simp only [← String.length_toList, hp, ofPieces, String.toList_ofList]
      simp

/-- The parent, its parent, and so on. -/
def ancestors (p : Path) : List Path :=
  match h : p.parent? with
  | none => []
  | some q =>
    have := length_of_parent? h
    q :: ancestors q
termination_by p.text.length

end Path

end SortingOffice
