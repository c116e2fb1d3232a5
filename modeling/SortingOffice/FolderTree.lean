import Std.Data.ExtTreeMap
import SortingOffice.Outcome
import SortingOffice.Rule.Basic

/-!
# Folder trees

The folders of one account. The root, the inbox and the folder for sent mail are always there, and
users create folders below the inbox. Each folder knows its parent and its children, and holds a
set of mails.

* `Folder`, `FolderTree`: a folder, and the folders by their paths.
* `FolderTree.initial`: the three folders that are always there.
* `FolderTree.create`: creates a folder.
* `FolderTree.file`: puts a mail into a folder.
* `FolderTree.clearInbox`: moves the mails that fit a rule out of the inbox.
-/

namespace SortingOffice

/-- The path itself, if a user may create a folder there. -/
def Path.checked (p : Path) : Except Fault Path :=
  if p.isUserPath then .ok p else .error (.invalidPath p)

/-- A finite set of paths. -/
abbrev Paths := Std.ExtTreeSet Path

/-- A folder: the folder above it, those right below it, and its mails. -/
structure Folder where
  parent : Option Path
  children : Paths
  mails : Mails
deriving DecidableEq

/-- A folder with the given parent and nothing in it. -/
def Folder.under (parent : Option Path) : Folder := ⟨parent, ∅, ∅⟩

/-- The folder with one more child. -/
def Folder.addChild (f : Folder) (p : Path) : Folder := { f with children := f.children.insert p }

/-- The folder with one more mail. -/
def Folder.addMail (f : Folder) (m : Mail) : Folder := { f with mails := f.mails.insert m }

/-- The folder with more mails. -/
def Folder.addMails (f : Folder) (ms : Mails) : Folder := { f with mails := f.mails ∪ ms }

/-- The folder with only those of its mails that pass a test. -/
def Folder.keep (f : Folder) (test : Mail → Bool) : Folder :=
  { f with mails := f.mails.filter test }

/-- The folders of an account by their paths. -/
structure FolderTree where
  folders : Std.ExtTreeMap Path Folder
deriving DecidableEq

namespace FolderTree

/-! ## Looking up -/

/-- Whether there is a folder at a path. -/
def contains (t : FolderTree) (p : Path) : Bool := t.folders.contains p

/-- The folder at a path. -/
def find (t : FolderTree) (p : Path) : Except Fault Folder :=
  match t.folders[p]? with
  | none => .error (.folderNotFound p)
  | some f => .ok f

/-- All paths in their order. -/
def paths (t : FolderTree) : List Path := t.folders.keys

/-- The folders right below a folder. -/
def children (t : FolderTree) (p : Path) : Except Fault Paths := (t.find p).map Folder.children

/-- The folder above a folder. -/
def parent (t : FolderTree) (p : Path) : Except Fault (Option Path) := (t.find p).map Folder.parent

/-- The mails in a folder. -/
def mails (t : FolderTree) (p : Path) : Except Fault Mails := (t.find p).map Folder.mails

/-- The mails in the inbox. -/
def inbox (t : FolderTree) : Mails := (t.folders[Path.inbox]?.map Folder.mails).getD ∅

/-! ## Folders -/

/-- The tree with a new folder below another one. -/
def link (t : FolderTree) (p parent : Path) : FolderTree :=
  ⟨(t.folders.modify parent (·.addChild p)).insert p (.under parent)⟩

/-- The tree of the root alone. -/
def rootOnly : FolderTree := ⟨(∅ : Std.ExtTreeMap Path Folder).insert .root (.under none)⟩

/-- The root with the inbox and the folder for sent mail below it. -/
def initial : FolderTree := (rootOnly.link .inbox .root).link .sent .root

/-- The parent of a folder that a user may create now: the path is one for users, the parent
exists, and the folder does not. -/
def parentForNew (t : FolderTree) (p : Path) : Except Fault Path :=
  match p.checked with
  | .error fault => .error fault
  | .ok p =>
    match p.parent?.filter t.contains with
    | none => .error (.invalidPath p)
    | some parent => if t.contains p then .error (.folderExists p) else .ok parent

/-- Creates a folder and answers with its path. -/
def create (t : FolderTree) (p : Path) : Outcome FolderTree Path :=
  .guarded t (t.parentForNew p) fun parent => ⟨.ok p, t.link p parent⟩

/-! ## Mails -/

/-- The tree with a mail in the folder at a path. If there is no such folder, it is made first,
without a parent. -/
def putMail (t : FolderTree) (p : Path) (m : Mail) : FolderTree :=
  ⟨t.folders.alter p fun f? => some ((f?.getD (.under none)).addMail m)⟩

/-- Puts a mail into the folder at a path. -/
def file (t : FolderTree) (p : Path) (m : Mail) : Outcome FolderTree Unit :=
  .guarded t (t.find p) fun _ => ⟨.ok (), t.putMail p m⟩

/-- The tree with more mails in the folder at a path, unchanged if there is no such folder. -/
def putMails (t : FolderTree) (p : Path) (ms : Mails) : FolderTree :=
  ⟨t.folders.modify p (·.addMails ms)⟩

/-- Puts mails into the folder at a path. -/
def fileAll (t : FolderTree) (p : Path) (ms : Mails) : Outcome FolderTree Unit :=
  .guarded t (t.find p) fun _ => ⟨.ok (), t.putMails p ms⟩

/-- The mails of the inbox that fit a rule. -/
def matching (t : FolderTree) (r : Rule) : Mails := t.inbox.filter r.fits

/-- The tree without the mails of the inbox that fit a rule. An inbox that is missing is made. -/
def withoutMatching (t : FolderTree) (r : Rule) : FolderTree :=
  ⟨t.folders.alter .inbox fun f? => some ((f?.getD (.under none)).keep (!r.fits ·))⟩

/-- Moves the mails of the inbox that fit a rule into the rule's folder, and answers with their
number. A rule for the inbox moves nothing. The mails leave the inbox before the rule's folder is
looked up for the second time. -/
def clearInbox (t : FolderTree) (r : Rule) : Outcome FolderTree Nat :=
  .guarded t (t.find r.folder) fun _ =>
    if r.folder = .inbox then ⟨.ok 0, t⟩
    else ((t.withoutMatching r).fileAll r.folder (t.matching r)).map fun _ => (t.matching r).size

end FolderTree

end SortingOffice
