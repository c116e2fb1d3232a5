import SortingOffice.Proofs.Mailbox.Run

/-!
# Where every mail is

The folders of a mailbox keep sets of mails and no history. Still the place of each mail is known
from the requests alone.

* `Mailbox.added`: the rules that a sequence of requests adds.
* `settle`, `onward`: where a mail of the inbox, or of any folder, ends when rules are added.
* `Mailbox.finalPlace`: where a mail that is delivered now ends behind later requests.
* **`holds_step`**, **`holds_run`**: where the mails are behind one request, and behind several.
* **`exists_holds_run`**: no mail is lost and none is invented.
* **`mails_run_initial`**: where the mails are behind requests to a new mailbox.
-/

namespace SortingOffice

/-- Where a mail of the inbox ends when rules are added in this order: in the folder of the first
one that fits it and is not for the inbox, or in the inbox. -/
def settle (rs : List Rule) (m : Mail) : Path :=
  match rs.find? fun r => r.fits m && r.folder != .inbox with
  | none => .inbox
  | some r => r.folder

/-- Where a mail ends when rules are added: only the inbox is cleared. -/
def onward (rs : List Rule) (m : Mail) (f : Path) : Path := if f = .inbox then settle rs m else f

theorem settle_cons (r : Rule) (rs : List Rule) (m : Mail) :
    settle (r :: rs) m = onward rs m (r.destination m) := by
  rw [settle, List.find?_cons, onward, settle, Rule.destination]
  by_cases hm : r.fits m = true
  · by_cases hr : r.folder = .inbox
    · simp [hm, hr]
    · rw [bne_iff_ne.2 hr]
      simp [hm, hr]
  · simp [hm]

@[simp] theorem onward_nil (m : Mail) (f : Path) : onward [] m f = f := by
  rw [onward]
  split_ifs with hf
  · rw [hf]
    rfl
  · rfl

theorem onward_of_ne {f : Path} (hf : f ≠ .inbox) (rs : List Rule) (m : Mail) :
    onward rs m f = f := if_neg hf

theorem onward_singleton (r : Rule) (m : Mail) (f : Path) :
    onward [r] m f = if f = .inbox then r.destination m else f := by
  rw [onward, settle_cons, onward_nil]

theorem onward_append (rs ss : List Rule) (m : Mail) (f : Path) :
    onward (rs ++ ss) m f = onward ss m (onward rs m f) := by
  by_cases hf : f = .inbox
  · -- only the first rule that takes the mail out of the inbox counts, wherever the list is cut
    rw [hf, onward, if_pos rfl, onward.eq_def rs, if_pos rfl]
    induction rs with
    | nil => rfl
    | cons r rs ih =>
      rw [List.cons_append, settle_cons, settle_cons]
      by_cases hr : r.destination m = .inbox
      · rw [hr, onward, if_pos rfl, onward.eq_def rs, if_pos rfl, ih]
      · rw [onward_of_ne hr, onward_of_ne hr, onward_of_ne hr]
  · rw [onward_of_ne hf, onward_of_ne hf, onward_of_ne hf]

namespace Mailbox

variable {b : Mailbox} {f : Path} {m : Mail}

/-- The rules that a sequence of requests adds, in the order in which they come. -/
def added (b : Mailbox) : List Request → List Rule
  | [] => []
  | .addRule r :: qs =>
    match (b.addRule r).answer with
    | .error _ => (b.step (.addRule r)).added qs
    | .ok _ => r :: (b.step (.addRule r)).added qs
  | q :: qs => (b.step q).added qs

/-- Where a mail that is delivered now ends behind later requests: in the folder of the first rule
that fits it, if there is one and its folder is not the inbox, and else where the rules added later
take it. -/
def finalPlace (b : Mailbox) (m : Mail) (later : List Request) : Path :=
  match b.rulebook.firstFor m with
  | none => settle ((b.step (.deliver m)).added later) m
  | some r =>
    if r.folder = .inbox then settle ((b.step (.deliver m)).added later) m else r.folder

theorem finalPlace_eq (b : Mailbox) (m : Mail) (later : List Request) :
    b.finalPlace m later = onward ((b.step (.deliver m)).added later) m (b.placeFor m) := by
  rw [finalPlace, placeFor, onward]
  cases b.rulebook.firstFor m with
  | none => rw [if_pos rfl]
  | some r => rfl

theorem added_cons (b : Mailbox) (q : Request) (qs : List Request) :
    b.added (q :: qs) = b.added [q] ++ (b.step q).added qs := by
  cases q with
  | addRule r =>
    rw [added, added]
    cases (b.addRule r).answer <;> rfl
  | create p => rfl
  | deliver n => rfl
  | recordSent n => rfl

/-! ## One request -/

theorem holds_step_create (b : Mailbox) (p : Path) :
    (b.step (.create p)).folders.Holds f m ↔ b.folders.Holds f m := by
  rw [step]
  cases h : b.folders.parentForNew p with
  | error fault => rw [create_of_error h]
  | ok parent =>
    rw [create_of_ok h]
    exact FolderTree.holds_link (FolderTree.not_contains_of_parentForNew h)

theorem holds_step_addRule (b : Mailbox) (r : Rule) :
    (b.step (.addRule r)).folders.Holds f m ↔
      ∃ g, b.folders.Holds g m ∧ f = onward (b.added [.addRule r]) m g := by
  rw [step, added]
  cases h : b.rulebookWith r with
  | error fault => simp [addRule_of_error h, added]
  | ok book =>
    rw [addRule_of_ok h, FolderTree.holds_cleared (contains_of_rulebookWith h)]
    simp only [added, onward_singleton]
    constructor
    · rintro (⟨hf, hm⟩ | ⟨hm, rfl⟩)
      · exact ⟨f, hm, (if_neg hf).symm⟩
      · exact ⟨.inbox, hm, (if_pos rfl).symm⟩
    · rintro ⟨g, hm, rfl⟩
      by_cases hg : g = .inbox
      · right
        rw [if_pos hg]
        exact ⟨hg ▸ hm, rfl⟩
      · left
        rw [if_neg hg]
        exact ⟨hg, hm⟩

/-- **Where the mails are behind one request.** The mails that were there go on where an added rule
takes them, and at most one mail comes in. -/
theorem holds_step (hb : b.Routable) (q : Request) : (b.step q).folders.Holds f m ↔
    (∃ g, b.folders.Holds g m ∧ f = onward (b.added [q]) m g) ∨
      (.recordSent m = q ∧ f = .sent) ∨ (q = .deliver m ∧ f = b.placeFor m) := by
  cases q with
  | create p => simp [holds_step_create, added]
  | addRule r => simp [holds_step_addRule]
  | deliver n =>
    rw [step, deliver_eq hb, FolderTree.holds_putMail]
    by_cases hn : m = n
    · simp [added, hn]
    · simp [added, hn, Ne.symm hn]
  | recordSent n =>
    rw [step, recordSent, FolderTree.holds_putMail]
    simp [added, and_comm]

/-! ## All requests -/

/-- A mail is delivered by the first request or by a later one. -/
theorem exists_deliver_cons (q : Request) (qs : List Request)
    (P : List Request → List Request → Prop) :
    (∃ before after, q :: qs = before ++ .deliver m :: after ∧ P before after) ↔
      (q = .deliver m ∧ P [] qs) ∨
        ∃ before after, qs = before ++ .deliver m :: after ∧ P (q :: before) after := by
  constructor
  · rintro ⟨before, after, heq, hP⟩
    rcases List.cons_eq_append_iff.1 heq with ⟨rfl, hcons⟩ | ⟨before', rfl, hqs⟩
    · obtain ⟨rfl, rfl⟩ := List.cons.inj hcons
      exact .inl ⟨rfl, hP⟩
    · exact .inr ⟨before', after, hqs, hP⟩
  · rintro (⟨rfl, hP⟩ | ⟨before, after, rfl, hP⟩)
    · exact ⟨[], qs, rfl, hP⟩
    · exact ⟨q :: before, after, rfl, hP⟩

/-- **Where the mails are behind a sequence of requests.** -/
theorem holds_run (hb : b.Routable) (qs : List Request) : (b.run qs).folders.Holds f m ↔
    (∃ g, b.folders.Holds g m ∧ f = onward (b.added qs) m g) ∨
      (.recordSent m ∈ qs ∧ f = .sent) ∨ ∃ before after, qs = before ++ .deliver m :: after ∧
        f = (b.run before).finalPlace m after := by
  -- the first request may move mails and add rules, so the claim is about any mailbox in front
  induction qs generalizing b with
  | nil => simp [added]
  | cons q qs ih =>
    have hsent (rs : List Rule) : onward rs m .sent = .sent := onward_of_ne (by decide) rs m
    have hdeliver := exists_deliver_cons (m := m) q qs
      fun before after => f = (b.run before).finalPlace m after
    rw [hdeliver, run_cons, ih (hb.step q), added_cons b q qs, List.mem_cons]
    simp only [holds_step hb, run_nil, run_cons, finalPlace_eq, onward_append]
    constructor
    · rintro (⟨g, ⟨g', hg', rfl⟩ | ⟨hq, rfl⟩ | ⟨rfl, rfl⟩, rfl⟩ | ⟨hqs, rfl⟩ | hlater)
      · exact .inl ⟨g', hg', rfl⟩
      · exact .inr (.inl ⟨.inl hq, hsent _⟩)
      · exact .inr (.inr (.inl ⟨rfl, rfl⟩))
      · exact .inr (.inl ⟨.inr hqs, rfl⟩)
      · exact .inr (.inr (.inr hlater))
    · rintro (⟨g, hg, rfl⟩ | ⟨hq | hqs, rfl⟩ | ⟨rfl, rfl⟩ | hlater)
      · exact .inl ⟨_, .inl ⟨g, hg, rfl⟩, rfl⟩
      · exact .inl ⟨.sent, .inr (.inl ⟨hq, rfl⟩), (hsent _).symm⟩
      · exact .inr (.inl ⟨hqs, rfl⟩)
      · exact .inl ⟨_, .inr (.inr ⟨rfl, rfl⟩), rfl⟩
      · exact .inr (.inr hlater)

/-- **No mail is lost and none is invented.** -/
theorem exists_holds_run (hb : b.Routable) (qs : List Request) :
    (∃ f, (b.run qs).folders.Holds f m) ↔
      (∃ f, b.folders.Holds f m) ∨ .recordSent m ∈ qs ∨ .deliver m ∈ qs := by
  simp only [holds_run hb]
  constructor
  · rintro ⟨f, ⟨g, hg, -⟩ | ⟨hqs, -⟩ | ⟨before, after, rfl, -⟩⟩
    · exact .inl ⟨g, hg⟩
    · exact .inr (.inl hqs)
    · exact .inr (.inr (List.mem_append_right before List.mem_cons_self))
  · rintro (⟨g, hg⟩ | hqs | hqs)
    · exact ⟨_, .inl ⟨g, hg, rfl⟩⟩
    · exact ⟨_, .inr (.inl ⟨hqs, rfl⟩)⟩
    · obtain ⟨before, after, heq⟩ := List.append_of_mem hqs
      exact ⟨_, .inr (.inr ⟨before, after, heq, rfl⟩)⟩

theorem not_holds_initial : ¬ FolderTree.initial.Holds f m := by
  have hroot : ¬ FolderTree.rootOnly.Holds f m := by
    rw [FolderTree.holds_iff, FolderTree.rootOnly, Std.ExtTreeMap.getElem?_insert]
    rintro ⟨g, hg, hm⟩
    split_ifs at hg
    · obtain rfl := Option.some.inj hg
      simp [Folder.under] at hm
    · simp at hg
  rw [FolderTree.initial, FolderTree.holds_link, FolderTree.holds_link]
  · exact hroot
  · decide
  · decide

/-- **The place of every mail is known from the history.** Behind any requests to a new mailbox, the
folder at a path holds exactly the mails that were sent, if it is the folder for those, and the
delivered mails whose final place it is. At a path without folder there is neither, so each final
place is a folder and no mail is lost. -/
theorem mails_run_initial (a : Account) (qs : List Request) (f : Path) (m : Mail) :
    (∃ ms, ((initial a).run qs).folders.mails f = .ok ms ∧ m ∈ ms) ↔
      (f = .sent ∧ .recordSent m ∈ qs) ∨ ∃ before after, qs = before ++ .deliver m :: after ∧
        f = ((initial a).run before).finalPlace m after := by
  rw [show (∃ ms, ((initial a).run qs).folders.mails f = .ok ms ∧ m ∈ ms) ↔
    ((initial a).run qs).folders.Holds f m from Iff.rfl, holds_run (routable_initial a)]
  constructor
  · rintro (⟨g, hg, -⟩ | ⟨hqs, hf⟩ | hlater)
    · exact absurd hg not_holds_initial
    · exact .inl ⟨hf, hqs⟩
    · exact .inr hlater
  · rintro (⟨hf, hqs⟩ | hlater)
    · exact .inr (.inl ⟨hqs, hf⟩)
    · exact .inr (.inr hlater)

end Mailbox

end SortingOffice
