import SortingOffice.Mailbox
import SortingOffice.Proofs.Folders.Holding
import SortingOffice.Proofs.Rulebook.StableSort

/-!
# Runs of a mailbox

* `Mailbox.Request`, `Mailbox.step`, `Mailbox.run`: what a mailbox can be asked for, and the mailbox
  behind one request or several.
* `Mailbox.Routable`: every rule has its folder.
* `create_of_ok`, `addRule_of_ok`, **`deliver_eq`**: what each request does; in a routable mailbox
  nothing fails behind the first change.
* **`Routable.step`**: a mailbox stays routable whatever it is asked for.
-/

namespace SortingOffice

namespace Mailbox

/-- What a mailbox can be asked for. -/
inductive Request
  | create (p : Path)
  | addRule (r : Rule)
  | deliver (m : Mail)
  | recordSent (m : Mail)

/-- The mailbox behind a request, whether it fails or not. -/
def step (b : Mailbox) : Request → Mailbox
  | .create p => (b.create p).state
  | .addRule r => (b.addRule r).state
  | .deliver m => (b.deliver m).state
  | .recordSent m => b.recordSent m

/-- The mailbox behind a sequence of requests. -/
def run (b : Mailbox) (qs : List Request) : Mailbox := qs.foldl step b

@[simp] theorem run_nil (b : Mailbox) : b.run [] = b := rfl

@[simp] theorem run_cons (b : Mailbox) (q : Request) (qs : List Request) :
    b.run (q :: qs) = (b.step q).run qs := rfl

theorem run_append (b : Mailbox) (qs qs' : List Request) :
    b.run (qs ++ qs') = (b.run qs).run qs' := List.foldl_append

/-- Every rule has its folder. -/
def Routable (b : Mailbox) : Prop := ∀ r ∈ b.rulebook.rules, b.folders.contains r.folder = true

/-- The folder for a mail that arrives: that of the first rule that fits, or the inbox. -/
def placeFor (b : Mailbox) (m : Mail) : Path :=
  match b.rulebook.firstFor m with
  | none => .inbox
  | some r => r.folder

variable {b : Mailbox} {p : Path} {r : Rule} {m : Mail}

theorem placeFor_congr {b' : Mailbox} (h : b'.rulebook = b.rulebook) :
    b'.placeFor m = b.placeFor m := by
  rw [placeFor, h, placeFor]

/-! ## Folders -/

theorem create_of_error {fault : Fault} (h : b.folders.parentForNew p = .error fault) :
    b.create p = ⟨.error fault, b⟩ := by
  rw [create, onFolders, FolderTree.create, h]
  rfl

theorem create_of_ok {parent : Path} (h : b.folders.parentForNew p = .ok parent) :
    b.create p = ⟨.ok p, { b with folders := b.folders.link p parent }⟩ := by
  rw [create, onFolders, FolderTree.create, h]
  rfl

/-! ## Rules -/

theorem contains_of_rulebookWith {book : Rulebook} (h : b.rulebookWith r = .ok book) :
    b.folders.contains r.folder = true := by
  rw [rulebookWith] at h
  cases hfind : b.folders.find r.folder with
  | error fault => rw [hfind] at h; cases h
  | ok f => exact FolderTree.exists_find_iff.1 ⟨f, hfind⟩

theorem insert_of_rulebookWith {book : Rulebook} (h : b.rulebookWith r = .ok book) :
    b.rulebook.insert r = .ok book := by
  rw [rulebookWith] at h
  cases hfind : b.folders.find r.folder with
  | error fault => rw [hfind] at h; cases h
  | ok f => rwa [hfind] at h

/-- A rulebook takes a rule if its folder exists and no rule clashes with it. -/
theorem rulebookWith_eq (b : Mailbox) (r : Rule) : b.rulebookWith r =
    if b.folders.contains r.folder = false then .error (.folderNotFound r.folder)
    else if ∃ s ∈ b.rulebook.rules, s.Clashes r then .error (.ruleConflict r.priority r.folder)
    else .ok (b.rulebook.place r) := by
  have hinsert := Rulebook.insert_eq (List.Perm.refl b.rulebook.rules) r
  rw [rulebookWith]
  split_ifs with hfolder hclash
  · rw [FolderTree.find_of_not_contains hfolder]
  · obtain ⟨f, hf⟩ := FolderTree.exists_find_iff.2 (Bool.of_not_eq_false hfolder)
    rw [hf]
    exact hinsert.trans (if_pos hclash)
  · obtain ⟨f, hf⟩ := FolderTree.exists_find_iff.2 (Bool.of_not_eq_false hfolder)
    rw [hf]
    exact hinsert.trans (if_neg hclash)

theorem rulebookWith_of_apart (hfolder : b.folders.contains r.folder = true)
    (hapart : ∀ s ∈ b.rulebook.rules, ¬ s.Clashes r) :
    b.rulebookWith r = .ok (b.rulebook.place r) := by
  have hclash : ¬ ∃ s ∈ b.rulebook.rules, s.Clashes r := fun ⟨s, hs, hsr⟩ => hapart s hs hsr
  rw [rulebookWith_eq, if_neg (by simp [hfolder]), if_neg hclash]

theorem addRule_of_error {fault : Fault} (h : b.rulebookWith r = .error fault) :
    b.addRule r = ⟨.error fault, b⟩ := by
  rw [addRule, h]
  rfl

/-- **Behind the insertion of the rule nothing fails.** -/
theorem addRule_of_ok {book : Rulebook} (h : b.rulebookWith r = .ok book) : b.addRule r =
    ⟨.ok (if r.folder = .inbox then 0 else (b.folders.matching r).size),
      { b with folders := b.folders.cleared r, rulebook := book }⟩ := by
  rw [addRule, h, Outcome.guarded_ok, onFolders,
    FolderTree.clearInbox_eq_ok (contains_of_rulebookWith h)]

/-! ## Mails -/

/-- **In a routable mailbox every mail can be delivered.** -/
theorem deliver_eq (hb : b.Routable) (m : Mail) : b.deliver m =
    ⟨.ok (b.placeFor m), { b with folders := b.folders.putMail (b.placeFor m) m }⟩ := by
  rw [deliver, placeFor]
  cases hfirst : b.rulebook.firstFor m with
  | none => rfl
  | some r =>
    obtain ⟨f, hf⟩ := FolderTree.exists_find_iff.2 (hb r (List.mem_of_find?_eq_some hfirst))
    simp only [onFolders, FolderTree.file, hf, Outcome.guarded_ok]
    rfl

/-! ## What stays -/

theorem account_step (b : Mailbox) (q : Request) : (b.step q).account = b.account := by
  cases q with
  | create p => rfl
  | addRule r =>
    rw [step]
    cases h : b.rulebookWith r with
    | error fault => rw [addRule_of_error h]
    | ok book => rw [addRule_of_ok h]
  | deliver m =>
    rw [step, deliver]
    cases b.rulebook.firstFor m <;> rfl
  | recordSent m => rfl

theorem account_run (b : Mailbox) (qs : List Request) : (b.run qs).account = b.account := by
  induction qs generalizing b with
  | nil => rfl
  | cons q qs ih => rw [run_cons, ih, account_step]

theorem contains_step (hb : b.Routable) (q : Request) (h : b.folders.contains p = true) :
    (b.step q).folders.contains p = true := by
  cases q with
  | create q =>
    rw [step]
    cases hparent : b.folders.parentForNew q with
    | error fault => rwa [create_of_error hparent]
    | ok parent => rw [create_of_ok hparent, FolderTree.contains_link, h, Bool.or_true]
  | addRule r =>
    rw [step]
    cases hbook : b.rulebookWith r with
    | error fault => rwa [addRule_of_error hbook]
    | ok book => rw [addRule_of_ok hbook]; exact FolderTree.contains_cleared h
  | deliver m => rw [step, deliver_eq hb, FolderTree.contains_putMail, h, Bool.or_true]
  | recordSent m => rw [step, recordSent, FolderTree.contains_putMail, h, Bool.or_true]

/-- A request keeps the rulebook, unless it adds a rule whose folder exists. -/
theorem rulebook_step_cases (b : Mailbox) (q : Request) :
    (b.step q).rulebook = b.rulebook ∨
      ∃ r, q = .addRule r ∧ b.folders.contains r.folder = true ∧
        (b.step q).rulebook = b.rulebook.place r := by
  cases q with
  | create p => exact .inl rfl
  | addRule r =>
    rw [step]
    cases hbook : b.rulebookWith r with
    | error fault => exact .inl (by rw [addRule_of_error hbook])
    | ok book =>
      refine .inr ⟨r, rfl, contains_of_rulebookWith hbook, ?_⟩
      rw [addRule_of_ok hbook, Rulebook.eq_place_of_insert (insert_of_rulebookWith hbook)]
  | deliver m =>
    rw [step, deliver]
    cases b.rulebook.firstFor m <;> exact .inl rfl
  | recordSent m => exact .inl rfl

theorem rulebook_run {qs : List Request} (hqs : ∀ r, .addRule r ∉ qs) :
    (b.run qs).rulebook = b.rulebook := by
  induction qs generalizing b with
  | nil => rfl
  | cons q qs ih =>
    rw [run_cons, ih fun r hr => hqs r (List.mem_cons_of_mem q hr)]
    rcases rulebook_step_cases b q with h | ⟨r, rfl, -⟩
    · exact h
    · exact absurd List.mem_cons_self (hqs r)

theorem mem_rules_step {s : Rule} (q : Request) (h : s ∈ (b.step q).rulebook.rules) :
    s ∈ b.rulebook.rules ∨ (q = .addRule s ∧ b.folders.contains s.folder = true) := by
  rcases rulebook_step_cases b q with hbook | ⟨r, rfl, hfolder, hbook⟩
  · rw [hbook] at h
    exact .inl h
  · rw [hbook] at h
    rcases Rulebook.mem_place.1 h with rfl | h
    · exact .inr ⟨rfl, hfolder⟩
    · exact .inl h

/-- **A mailbox stays routable whatever it is asked for.** -/
theorem Routable.step (hb : b.Routable) (q : Request) : (b.step q).Routable := by
  intro s hs
  rcases mem_rules_step q hs with hs | ⟨-, hs⟩
  · exact contains_step hb q (hb s hs)
  · exact contains_step hb q hs

theorem routable_initial (a : Account) : (initial a).Routable := fun _ h => nomatch h

end Mailbox

end SortingOffice
