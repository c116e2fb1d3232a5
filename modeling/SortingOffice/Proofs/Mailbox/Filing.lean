import SortingOffice.Proofs.Mailbox.Inbox

/-!
# Requests that only file a mail

* `Mailbox.filed?`: which mail a request files, and where.
* `holds_run_of_filed`: where the mails are behind such requests.
* **`run_eq_self_iff`**: such requests change nothing exactly if every mail is in its place already.
-/

namespace SortingOffice

namespace Mailbox

/-- Where a request files which mail, if that is all it does. -/
def filed? (b : Mailbox) : Request → Option (Path × Mail)
  | .create _ | .addRule _ => none
  | .deliver m => some (b.placeFor m, m)
  | .recordSent m => some (.sent, m)

variable {b : Mailbox} {q : Request} {qs : List Request} {p f : Path} {m m' : Mail}

theorem step_of_filed (hb : b.Routable) (hq : b.filed? q = some (p, m)) :
    b.step q = { b with folders := b.folders.putMail p m } := by
  cases q with
  | create p => cases hq
  | addRule r => cases hq
  | deliver m =>
    cases hq
    rw [step, deliver_eq hb]
  | recordSent m =>
    cases hq
    rfl

/-- Where a mail is filed depends on the rules only. -/
theorem filed?_congr {b' : Mailbox} (h : b'.rulebook = b.rulebook) (q : Request) :
    b'.filed? q = b.filed? q := by
  cases q with
  | deliver m => rw [filed?, placeFor_congr h, filed?]
  | _ => rfl

theorem filed?_step (hq : b.filed? q = some (p, m)) (q' : Request) :
    (b.step q).filed? q' = b.filed? q' := by
  refine filed?_congr ?_ q'
  rcases rulebook_step_cases b q with hbook | ⟨r, rfl, -, -⟩
  · exact hbook
  · cases hq

/-- **Where the mails are behind requests that only file mails.** -/
theorem holds_run_of_filed (hb : b.Routable) (hqs : ∀ q ∈ qs, (b.filed? q).isSome = true) :
    (b.run qs).folders.Holds f m ↔
      b.folders.Holds f m ∨ ∃ q ∈ qs, b.filed? q = some (f, m) := by
  induction qs generalizing b with
  | nil => simp
  | cons q qs ih =>
    obtain ⟨⟨p, m'⟩, hq⟩ := Option.isSome_iff_exists.1 (hqs q List.mem_cons_self)
    have hrest : ∀ q' ∈ qs, ((b.step q).filed? q').isSome = true := by
      intro q' hq'
      rw [filed?_step hq]
      exact hqs q' (List.mem_cons_of_mem q hq')
    have hfirst : (b.step q).folders.Holds f m ↔ b.folders.Holds f m ∨ f = p ∧ m = m' := by
      rw [step_of_filed hb hq, FolderTree.holds_putMail]
    rw [run_cons, ih (hb.step q) hrest, hfirst]
    simp only [filed?_step hq, List.mem_cons, exists_eq_or_imp, hq, Option.some.injEq,
      Prod.mk.injEq, or_assoc, eq_comm (a := p), eq_comm (a := m')]

/-- **Requests that only file mails change nothing exactly if every mail is in its place.** -/
theorem run_eq_self_iff (hb : b.Routable) (hqs : ∀ q ∈ qs, (b.filed? q).isSome = true) :
    b.run qs = b ↔ ∀ q ∈ qs, ∀ p m, b.filed? q = some (p, m) → b.folders.Holds p m := by
  constructor
  · intro hrun q hq p m hfiled
    rw [← hrun, holds_run_of_filed hb hqs]
    exact .inr ⟨q, hq, hfiled⟩
  · intro hall
    induction qs with
    | nil => rfl
    | cons q qs ih =>
      obtain ⟨⟨p, m⟩, hq⟩ := Option.isSome_iff_exists.1 (hqs q List.mem_cons_self)
      have hstep : b.step q = b := by
        rw [step_of_filed hb hq, FolderTree.putMail_of_holds (hall q List.mem_cons_self p m hq)]
      rw [run_cons, hstep]
      exact ih (fun q' hq' => hqs q' (List.mem_cons_of_mem q hq'))
        fun q' hq' => hall q' (List.mem_cons_of_mem q hq')

end Mailbox

end SortingOffice
