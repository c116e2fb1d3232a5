import SortingOffice.Proofs.Folders.Replay
import SortingOffice.Proofs.Mailbox.Interleave

/-!
# Setting up a mailbox once more

The folders and the rules of a mailbox can be carried over to a new mailbox of the same account:
first the folders that users have created, in the order of their paths, and then the rules in the
order in which they are asked. Nothing is refused on the way, since a parent comes before its
children, each rule belongs behind those that came before it, and no two rules clash.

* `Mailbox.Settled`, **`Settled.run`**: what the folders and the rules of a mailbox keep to.
* **`addRule_of_empty`**: a rule that is added to a mailbox with an empty inbox.
* `rebuilt`, **`Settled.rebuilt_eq`**: a new mailbox with the folders and the rules of another one.
* **`replay_run_initial`**: the folders and the rules can be carried over behind any requests.
-/

namespace SortingOffice

/-- An inbox without mails stays as it is when it is cleared. -/
theorem FolderTree.cleared_of_empty {t : FolderTree} {r : Rule} (hinbox : t.contains .inbox = true)
    (hfolder : t.contains r.folder = true) (hempty : ∀ m, ¬ t.Holds .inbox m) :
    t.cleared r = t := by
  refine ext_links (links_cleared hinbox r) fun p m => ?_
  rw [holds_cleared hfolder]
  constructor
  · rintro (⟨-, hm⟩ | ⟨hm, -⟩)
    · exact hm
    · exact absurd hm (hempty m)
  · intro hm
    refine .inl ⟨?_, hm⟩
    rintro rfl
    exact hempty m hm

namespace Mailbox

variable {b b' : Mailbox} {r : Rule} {m : Mail} {p : Path} {a : Account} {before after : List Rule}

/-! ## What folders and rules keep to -/

/-- The folders hang together, every rule has its folder, and the rules are in the order of their
priorities and do not clash. -/
structure Settled (b : Mailbox) : Prop extends b.Tidy where
  folders : b.folders.WellFormed
  apart : b.rulebook.rules.Pairwise fun r s => ¬ r.Clashes s

theorem Settled.housed (hb : b.Settled) : b.Housed :=
  ⟨hb.routable, hb.folders.inbox, hb.folders.sent⟩

theorem Settled.folders_step (hb : b.Settled) (q : Request) : (b.step q).folders.WellFormed := by
  cases q with
  | create p => exact hb.folders.create p
  | _ => exact hb.folders.congr (hb.housed.links_step (by simp))

theorem Settled.apart_step (hb : b.Settled) (q : Request) :
    (b.step q).rulebook.rules.Pairwise fun r s => ¬ r.Clashes s := by
  cases q with
  | create p => exact hb.apart
  | addRule r =>
    rw [Mailbox.step]
    cases hbook : b.rulebookWith r with
    | error fault =>
      rw [addRule_of_error hbook]
      exact hb.apart
    | ok book =>
      rw [addRule_of_ok hbook]
      exact Rulebook.apart_of_insert hb.apart (insert_of_rulebookWith hbook)
  | deliver m =>
    rw [rulebook_step_deliver]
    exact hb.apart
  | recordSent m => exact hb.apart

theorem Settled.step (hb : b.Settled) (q : Request) : (b.step q).Settled :=
  ⟨hb.toTidy.step q, hb.folders_step q, hb.apart_step q⟩

/-- **A mailbox stays settled whatever it is asked for.** -/
theorem Settled.run (hb : b.Settled) (qs : List Request) : (b.run qs).Settled := by
  induction qs generalizing b with
  | nil => exact hb
  | cons q qs ih => exact ih (hb.step q)

theorem settled_initial (a : Account) : (initial a).Settled :=
  ⟨tidy_initial a, FolderTree.wellFormed_initial, List.Pairwise.nil⟩

/-! ## Rules without mails -/

/-- **A rule that is added to a mailbox with an empty inbox moves nothing.** If it belongs behind
all rules that are there, it becomes the last one. -/
theorem addRule_of_empty (hinbox : b.folders.contains .inbox = true)
    (hempty : ∀ m, ¬ b.folders.Holds .inbox m) (hfolder : b.folders.contains r.folder = true)
    (hordered : ∀ s ∈ b.rulebook.rules, s.priority ≤ r.priority)
    (hapart : ∀ s ∈ b.rulebook.rules, ¬ s.Clashes r) :
    b.addRule r = ⟨.ok 0, { b with rulebook := ⟨b.rulebook.rules ++ [r]⟩ }⟩ := by
  have hplace : b.rulebook.place r = ⟨b.rulebook.rules ++ [r]⟩ :=
    congrArg Rulebook.mk (Rulebook.place_of_le hordered)
  have hmatching : b.folders.matching r = ∅ := by
    apply Std.ExtTreeSet.ext_mem
    intro m
    rw [FolderTree.mem_matching]
    simp [hempty m]
  rw [addRule_of_ok (rulebookWith_of_apart hfolder hapart), hplace, hmatching,
    FolderTree.cleared_of_empty hinbox hfolder hempty, Std.ExtTreeSet.size_empty, ite_self]

/-- **The next rule can be added**, if those in front of it are there and no others. -/
theorem Settled.addRule_replay (hb : b.Settled) (hcut : b.rulebook.rules = before ++ r :: after)
    (hrules : b'.rulebook.rules = before)
    (hcontains : ∀ p, b'.folders.contains p = b.folders.contains p)
    (hempty : ∀ m, ¬ b'.folders.Holds .inbox m) :
    b'.addRule r = ⟨.ok 0, { b' with rulebook := ⟨before ++ [r]⟩ }⟩ := by
  have hordered := hb.ordered
  have hapart := hb.apart
  rw [hcut, List.pairwise_append] at hordered hapart
  have hr : r ∈ b.rulebook.rules := by
    rw [hcut]
    exact List.mem_append_right before List.mem_cons_self
  rw [addRule_of_empty, hrules]
  · rw [hcontains, hb.folders.inbox]
  · exact hempty
  · rw [hcontains, hb.routable r hr]
  · rw [hrules]
    exact fun s hs => hordered.2.2 s hs r List.mem_cons_self
  · rw [hrules]
    exact fun s hs => hapart.2.2 s hs r List.mem_cons_self

/-! ## Folders and rules in a new mailbox -/

/-- A new mailbox with some folders and then some rules. -/
def rebuilt (a : Account) (ps : List Path) (rs : List Rule) : Mailbox :=
  (initial a).run (ps.map .create ++ rs.map .addRule)

theorem run_create (b : Mailbox) (ps : List Path) :
    b.run (ps.map .create) = { b with folders := b.folders.run (ps.map .create) } := by
  induction ps generalizing b with
  | nil => rfl
  | cons p ps ih =>
    rw [List.map_cons, run_cons, ih]
    rfl

theorem rebuilt_of_folders (a : Account) (ps : List Path) :
    rebuilt a ps [] = ⟨a, FolderTree.initial.run (ps.map .create), .empty⟩ := by
  rw [rebuilt, List.map_nil, List.append_nil, run_create]
  rfl

theorem not_holds_rebuilt (a : Account) (ps : List Path) :
    ¬ (FolderTree.initial.run (ps.map .create)).Holds p m := by
  have hfolders := holds_run_create (f := p) (m := m) (initial a) ps
  rw [run_create] at hfolders
  exact fun hm => not_holds_initial (hfolders.1 hm)

/-- **The folders of a mailbox and the rules in front of a place, in a new mailbox.** -/
theorem Settled.rebuilt_eq (hb : b.Settled) (hcut : b.rulebook.rules = before ++ after) :
    rebuilt a b.folders.userPaths before =
      ⟨a, FolderTree.initial.run (b.folders.userPaths.map .create), ⟨before⟩⟩ := by
  induction before using List.reverseRecOn generalizing after with
  | nil => exact rebuilt_of_folders a _
  | append_singleton before r ih =>
    rw [List.append_assoc, List.singleton_append] at hcut
    have hfront := ih hcut
    rw [rebuilt, List.map_append, ← List.append_assoc, run_append, ← rebuilt, hfront]
    show (addRule _ r).state = _
    rw [hb.addRule_replay hcut rfl hb.folders.contains_rebuilt fun _ => not_holds_rebuilt a _]

/-- **The folders and the rules of a mailbox can be carried over.** Behind any requests to a new
mailbox, take the folders that users have created in the order of their paths, and the rules in the
order in which they are asked. In a new mailbox of the same account, each of these folders can be
created behind those in front of it, and each of these rules can be added behind those in front of
it and moves no mail. The mailbox behind it all has the same paths, the same parent and the same
children for each folder, the same rules in the same order, and no mails. -/
theorem replay_run_initial (a : Account) (qs : List Request) :
    let b := (initial a).run qs
    let b' := rebuilt a b.folders.userPaths b.rulebook.rules
    (∀ before p after, b.folders.userPaths = before ++ p :: after →
      ((rebuilt a before []).create p).answer = .ok p) ∧
    (∀ before r after, b.rulebook.rules = before ++ r :: after →
      ((rebuilt a b.folders.userPaths before).addRule r).answer = .ok 0) ∧
    b'.account = b.account ∧ b'.folders.paths = b.folders.paths ∧
    (∀ p, b'.folders.parent p = b.folders.parent p ∧
      b'.folders.children p = b.folders.children p) ∧
    b'.rulebook.rules = b.rulebook.rules ∧ ∀ p m, ¬ b'.folders.Holds p m := by
  intro b b'
  have hb : b.Settled := (settled_initial a).run qs
  have hb' : b' = ⟨a, FolderTree.initial.run (b.folders.userPaths.map .create), b.rulebook⟩ :=
    hb.rebuilt_eq (List.append_nil _).symm
  have hlinked : (FolderTree.initial.run (b.folders.userPaths.map .create)).Linked :=
    (FolderTree.wellFormed_initial.run _).toLinked
  have hcontains := hb.folders.contains_rebuilt
  refine ⟨?_, ?_, ?_, ?_, ?_, ?_, ?_⟩
  · intro before p after hcut
    obtain ⟨q, hq⟩ := hb.folders.parentForNew_replay hcut (hb.folders.contains_replay hcut)
    rw [rebuilt_of_folders, create_of_ok hq]
  · intro before r after hcut
    rw [hb.rebuilt_eq hcut, hb.addRule_replay hcut rfl hcontains fun _ => not_holds_rebuilt a _]
  · rw [hb', account_run]
    rfl
  · rw [hb', FolderTree.paths_congr hcontains]
  · intro p
    rw [hb']
    exact ⟨hb.folders.parent_eq hlinked hcontains p, hb.folders.children_eq hlinked hcontains p⟩
  · rw [hb']
  · intro p m
    rw [hb']
    exact not_holds_rebuilt a _

end Mailbox

end SortingOffice
