import Mathlib.Data.List.Perm.Basic
import SortingOffice.Proofs.Folders.Exchange
import SortingOffice.Proofs.Mailbox.Filing

/-!
# Requests to a mailbox in another order

A mail goes where the rulebook says, and the folders keep sets, so mails can come in any order. They
do not mind a new folder either. The folders that mails go to have to be there: a folder that is
missing would be made by the first mail, and the next request would find another tree.

* `Mailbox.Housed`, `Housed.run`: every mail that comes in has its folder.
* `Mailbox.Request.IsFiling`: requests that only file a mail.
* `Mailbox.Commutes`, **`commutes_filing`**, **`commutes_create`**: requests that can be swapped.
* **`run_perm`**, **`run_append_comm`**: sequences of requests in another order.
-/

namespace SortingOffice

namespace Mailbox

/-- Rules have their folders, and so have the mails that no rule takes and those that are sent. -/
structure Housed (b : Mailbox) : Prop where
  routable : b.Routable
  inbox : b.folders.contains .inbox = true
  sent : b.folders.contains .sent = true

/-- Requests that only file a mail. -/
def Request.IsFiling : Request → Prop
  | .create _ | .addRule _ => False
  | .deliver _ | .recordSent _ => True

/-- Two requests to a housed mailbox can be swapped. -/
def Commutes (q q' : Request) : Prop :=
  ∀ b : Mailbox, b.Housed → (b.step q).step q' = (b.step q').step q

variable {b : Mailbox} {q q' : Request} {qs qs' : List Request} {p : Path} {m : Mail}

/-! ## Folders for all mails -/

theorem Housed.step (hb : b.Housed) (q : Request) : (b.step q).Housed where
  routable := hb.routable.step q
  inbox := contains_step hb.routable q hb.inbox
  sent := contains_step hb.routable q hb.sent

/-- A mailbox stays housed whatever it is asked for. -/
theorem Housed.run (hb : b.Housed) (qs : List Request) : (b.run qs).Housed := by
  induction qs generalizing b with
  | nil => exact hb
  | cons q qs ih => exact ih (hb.step q)

theorem housed_initial (a : Account) : (initial a).Housed where
  routable := routable_initial a
  inbox := FolderTree.wellFormed_initial.inbox
  sent := FolderTree.wellFormed_initial.sent

theorem Housed.contains_placeFor (hb : b.Housed) (m : Mail) :
    b.folders.contains (b.placeFor m) = true := by
  rw [placeFor]
  cases hfirst : b.rulebook.firstFor m with
  | none => exact hb.inbox
  | some r => exact hb.routable r (List.mem_of_find?_eq_some hfirst)

theorem Housed.contains_of_filed (hb : b.Housed) (hq : b.filed? q = some (p, m)) :
    b.folders.contains p = true := by
  cases q with
  | create p => cases hq
  | addRule r => cases hq
  | deliver m =>
    cases hq
    exact hb.contains_placeFor m
  | recordSent m =>
    cases hq
    exact hb.sent

theorem exists_filed (hq : q.IsFiling) (b : Mailbox) : ∃ p m, b.filed? q = some (p, m) := by
  cases q with
  | create p => cases hq
  | addRule r => cases hq
  | deliver m => exact ⟨_, _, rfl⟩
  | recordSent m => exact ⟨_, _, rfl⟩

theorem isSome_filed (hq : q.IsFiling) (b : Mailbox) : (b.filed? q).isSome = true := by
  obtain ⟨p, m, hfiled⟩ := exists_filed hq b
  rw [hfiled]
  rfl

/-- Only a new folder changes how the folders hang together. -/
theorem Housed.links_step (hb : b.Housed) (hq : ∀ p, q ≠ .create p) (p : Path) :
    (b.step q).folders.links p = b.folders.links p := by
  cases q with
  | create p => exact absurd rfl (hq p)
  | addRule r =>
    rw [Mailbox.step]
    cases hbook : b.rulebookWith r with
    | error fault => rw [addRule_of_error hbook]
    | ok book => rw [addRule_of_ok hbook, FolderTree.links_cleared hb.inbox]
  | deliver m =>
    rw [Mailbox.step, deliver_eq hb.routable, FolderTree.links_putMail (hb.contains_placeFor m)]
  | recordSent m => exact FolderTree.links_putMail hb.sent m p

theorem Housed.links_run (hb : b.Housed) (hqs : ∀ q ∈ qs, ∀ p, q ≠ .create p) (p : Path) :
    (b.run qs).folders.links p = b.folders.links p := by
  induction qs generalizing b with
  | nil => rfl
  | cons q qs ih =>
    obtain ⟨hq, hqs⟩ := List.forall_mem_cons.1 hqs
    rw [run_cons, ih (hb.step q) hqs, hb.links_step hq]

/-! ## Two requests -/

/-- **Two mails can be filed in either order.** -/
theorem commutes_filing (hq : q.IsFiling) (hq' : q'.IsFiling) : Commutes q q' := by
  intro b hb
  obtain ⟨p, m, hfiled⟩ := exists_filed hq b
  obtain ⟨p', m', hfiled'⟩ := exists_filed hq' b
  have hsecond : (b.step q).filed? q' = some (p', m') := by rw [filed?_step hfiled, hfiled']
  have hsecond' : (b.step q').filed? q = some (p, m) := by rw [filed?_step hfiled', hfiled]
  rw [step_of_filed (hb.routable.step q) hsecond, step_of_filed (hb.routable.step q') hsecond',
    step_of_filed hb.routable hfiled, step_of_filed hb.routable hfiled',
    FolderTree.putMail_comm (hb.contains_of_filed hfiled) (hb.contains_of_filed hfiled')]

/-- **A folder can be created before a mail is filed or behind that.** -/
theorem commutes_create (p : Path) (hq : q.IsFiling) : Commutes (.create p) q := by
  intro b hb
  obtain ⟨p', m, hfiled⟩ := exists_filed hq b
  have hp' := hb.contains_of_filed hfiled
  have hfiled' : (b.step (.create p)).filed? q = some (p', m) := by
    rw [← hfiled]
    cases q <;> rfl
  have hsame : (b.folders.putMail p' m).parentForNew p = b.folders.parentForNew p :=
    FolderTree.parentForNew_congr (FolderTree.links_putMail hp' m) p
  rw [step_of_filed (hb.routable.step _) hfiled', step_of_filed hb.routable hfiled]
  cases hparent : b.folders.parentForNew p with
  | error fault =>
    rw [hparent] at hsame
    rw [step, step, create_of_error hparent, create_of_error hsame]
  | ok parent =>
    rw [hparent] at hsame
    rw [step, step, create_of_ok hparent, create_of_ok hsame,
      FolderTree.link_putMail (FolderTree.not_contains_of_parentForNew hparent) hp']

/-! ## Sequences of requests -/

/-- **Requests that can be swapped can be permuted.** -/
theorem run_perm (hperm : qs.Perm qs') (hb : b.Housed)
    (hqs : ∀ q ∈ qs, ∀ q' ∈ qs, Commutes q q') : b.run qs = b.run qs' := by
  induction hperm generalizing b with
  | nil => rfl
  | cons q _ ih =>
    exact ih (hb.step q) fun r hr r' hr' =>
      hqs r (List.mem_cons_of_mem q hr) r' (List.mem_cons_of_mem q hr')
  | swap q q' qs =>
    rw [run_cons, run_cons, run_cons, run_cons,
      hqs q' List.mem_cons_self q (List.mem_cons_of_mem q' List.mem_cons_self) b hb]
  | trans hfirst _ ih ih' =>
    rw [ih hb hqs]
    exact ih' hb fun r hr r' hr' =>
      hqs r (hfirst.mem_iff.2 hr) r' (hfirst.mem_iff.2 hr')

theorem step_run_comm (hb : b.Housed) (hqs : ∀ q' ∈ qs, Commutes q q') :
    (b.step q).run qs = (b.run qs).step q := by
  induction qs generalizing b with
  | nil => rfl
  | cons q' qs ih =>
    rw [run_cons, hqs q' List.mem_cons_self b hb, run_cons]
    exact ih (hb.step q') fun r hr => hqs r (List.mem_cons_of_mem q' hr)

/-- **Two sequences of requests can be swapped if each request of one can be swapped with each of
the other.** -/
theorem run_append_comm (hb : b.Housed) (hqs : ∀ q ∈ qs, ∀ q' ∈ qs', Commutes q q') :
    b.run (qs ++ qs') = b.run (qs' ++ qs) := by
  rw [run_append, run_append]
  induction qs generalizing b with
  | nil => rfl
  | cons q qs ih =>
    rw [run_cons, run_cons, ← step_run_comm hb (hqs q List.mem_cons_self)]
    exact ih (hb.step q) fun r hr => hqs r (List.mem_cons_of_mem q hr)

end Mailbox

end SortingOffice
