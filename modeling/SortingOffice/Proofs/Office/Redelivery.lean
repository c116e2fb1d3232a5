import SortingOffice.Proofs.Office.Interrupted
import SortingOffice.Proofs.Office.Traffic

/-!
# Mails that come again

A mail request that comes a second time reads the same text, looks up the same accounts and finds
the same rules, as long as no account and no rule was added. It also finds each copy where it would
file it: only a new rule moves mails.

* `Mailbox.Grown`, `Mailbox.grown_run`: the rules are the same, and no mail has left its folder.
* `Office.AddsNothing`: requests none of which adds an account or a rule.
* `Office.Grown`, **`Grown.run`**: what such requests keep.
* **`Reachable.perform_again`**: a mail request that comes again changes nothing.
-/

namespace SortingOffice

namespace Mailbox

/-- The rules are the same, and every mail is still in its folder. -/
structure Grown (b b' : Mailbox) : Prop where
  rulebook : b'.rulebook = b.rulebook
  kept : ∀ {f m}, b.folders.Holds f m → b'.folders.Holds f m

variable {b b' b'' : Mailbox} {q : Request} {qs : List Request}

theorem Grown.refl (b : Mailbox) : Grown b b := ⟨rfl, id⟩

theorem Grown.trans (h : Grown b b') (h' : Grown b' b'') : Grown b b'' :=
  ⟨h'.rulebook.trans h.rulebook, h'.kept ∘ h.kept⟩

/-- Only a new rule takes mails out of a folder. -/
theorem grown_step (hb : b.Routable) (hq : ∀ r, q ≠ .addRule r) : Grown b (b.step q) where
  rulebook := by
    rcases rulebook_step_cases b q with h | ⟨r, rfl, -⟩
    · exact h
    · exact absurd rfl (hq r)
  kept := by
    intro f m hm
    have hadded : b.added [q] = [] := by
      cases q with
      | addRule r => exact absurd rfl (hq r)
      | _ => rfl
    rw [holds_step hb, hadded]
    exact .inl ⟨f, hm, (onward_nil m f).symm⟩

theorem grown_run (hb : b.Routable) (hqs : ∀ r, .addRule r ∉ qs) : Grown b (b.run qs) := by
  induction qs generalizing b with
  | nil => exact .refl b
  | cons q qs ih =>
    have hq : ∀ r, q ≠ .addRule r := fun r h => hqs r (h ▸ List.mem_cons_self)
    have hrest : ∀ r, .addRule r ∉ qs := fun r hr => hqs r (List.mem_cons_of_mem q hr)
    exact (grown_step hb hq).trans (ih (hb.step q) hrest)

end Mailbox

namespace Office

/-! ## Requests that add nothing -/

/-- Requests for a new account or a new rule. -/
def Request.Adds : Request → Prop
  | .addAccount .. | .addRule .. => True
  | .createFolder .. | .receive .. | .send .. => False

instance : DecidablePred Request.Adds
  | .addAccount .. | .addRule .. => .isTrue trivial
  | .createFolder .. | .receive .. | .send .. => .isFalse id

/-- No request of a sequence adds an account or a rule. Those that try do not succeed. -/
def AddsNothing (o : Office) : List Request → Prop
  | [] => True
  | q :: qs => (q.Adds → ¬ (o.perform q).Succeeds) ∧ (o.perform q).state.AddsNothing qs

instance decidableAddsNothing : ∀ (o : Office) (qs : List Request), Decidable (o.AddsNothing qs)
  | _, [] => .isTrue trivial
  | o, q :: qs =>
    have := decidableAddsNothing (o.perform q).state qs
    inferInstanceAs <| Decidable ((q.Adds → ¬ (o.perform q).Succeeds) ∧
      (o.perform q).state.AddsNothing qs)

/-- The settings and the accounts are the same, and so are the rules of each mailbox, where every
mail is still in its folder. -/
structure Grown (o o' : Office) : Prop where
  alike : Alike o o'
  mailbox : ∀ {n b}, o.roster.mailbox? n = some b →
    ∃ b', o'.roster.mailbox? n = some b' ∧ b.Grown b'

variable {o o' o'' : Office} {q : Request} {qs : List Request} {n : String} {b b' : Mailbox}

theorem Grown.refl (o : Office) : Grown o o := ⟨⟨rfl, fun _ => rfl⟩, fun hb => ⟨_, hb, .refl _⟩⟩

theorem Grown.trans (h : Grown o o') (h' : Grown o' o'') : Grown o o'' := by
  refine ⟨h.alike.trans h'.alike, fun hb => ?_⟩
  obtain ⟨b', hb', hgrown⟩ := h.mailbox hb
  obtain ⟨b'', hb'', hgrown'⟩ := h'.mailbox hb'
  exact ⟨b'', hb'', hgrown.trans hgrown'⟩

theorem addRule_notMem_writes (hq : ¬ q.Adds) (n : String) (r : Rule) :
    .edit n (.addRule r) ∉ o.writes q := by
  cases q with
  | addAccount name email => exact absurd trivial hq
  | addRule name path definition priority => exact absurd trivial hq
  | createFolder name path => simp [writes, mem_behind]
  | receive name header content => simp [writes, mem_behind, deliveries]
  | send name header content => simp [writes, mem_behind, deliveries]

theorem Request.IsMail.not_adds (hq : q.IsMail) : ¬ q.Adds := by
  cases q <;> simp_all [IsMail, Adds]

/-- **What a request keeps that adds nothing.** -/
theorem grown_perform (ho : o.Sound) (hq : q.Adds → ¬ (o.perform q).Succeeds) :
    Grown o (o.perform q).state := by
  by_cases hadds : q.Adds
  · -- it fails, so it changes nothing
    cases hanswer : (o.perform q).answer with
    | error fault =>
      rw [atomic_perform ho q fault hanswer]
      exact .refl o
    | ok a => exact absurd ⟨a, hanswer⟩ (hq hadds)
  · have hadd : ∀ name email, q ≠ .addAccount name email := by
      rintro name email rfl
      exact hadds trivial
    refine ⟨alike_perform ho.roster hadd, fun hb => ?_⟩
    rw [state_perform ho.roster, roster_after, Roster.mailbox?_run_of_some hb]
    refine ⟨_, rfl, Mailbox.grown_run (ho.roster.routable hb) fun r hr => ?_⟩
    exact addRule_notMem_writes hadds _ r (Roster.mem_requestsFor.1 hr)

theorem Request.IsMail.grown_perform (hq : q.IsMail) (ho : o.Sound) :
    Grown o (o.perform q).state :=
  Office.grown_perform ho fun hadds => absurd hadds hq.not_adds

/-- **What requests keep that add nothing.** -/
theorem Grown.run (ho : o.Sound) (hqs : o.AddsNothing qs) : Grown o (o.run qs) := by
  induction qs generalizing o with
  | nil => exact .refl o
  | cons q qs ih =>
    obtain ⟨hq, hqs⟩ := hqs
    exact (grown_perform ho hq).trans (ih (ho.perform q) hqs)

/-! ## The second time -/

/-- A mail request is answered in the same way later, as long as nothing is added. -/
theorem Grown.answer_perform (h : Grown o o') (ho : o.Sound) (ho' : o'.Sound) (hq : q.IsMail) :
    (o'.perform q).answer = (o.perform q).answer := by
  cases q with
  | addAccount name email => cases hq
  | createFolder name path => cases hq
  | addRule name path definition priority => cases hq
  | receive name header content =>
    refine answer_receive_congr ho.roster ho'.roster h.alike ?_ header content
    intro b b' hb hb'
    obtain ⟨b'', hb'', hgrown⟩ := h.mailbox hb
    rw [← Option.some.inj (hb''.symm.trans hb')]
    exact hgrown.rulebook
  | send name header content => exact answer_send_congr ho.roster ho'.roster h.alike _ _ _

/-- Behind a mail request, each mailbox has every mail where the request would file it. -/
theorem holds_of_filed (ho : o.Sound) (hq : q.IsMail) (hb : o.roster.mailbox? n = some b)
    (hb' : (o.perform q).state.roster.mailbox? n = some b') {w : Mailbox.Request}
    (hw : w ∈ Roster.requestsFor n (o.writes q)) {p : Path} {m : Mail}
    (hfiled : b.filed? w = some (p, m)) : b'.folders.Holds p m := by
  rw [state_perform ho.roster, roster_after, Roster.mailbox?_run_of_some hb] at hb'
  obtain rfl := Option.some.inj hb'
  have hall : ∀ w ∈ Roster.requestsFor n (o.writes q), (b.filed? w).isSome = true := fun w hw =>
    Mailbox.isSome_filed (isFiling_of_mem_writes hq hw) b
  rw [Mailbox.holds_run_of_filed (ho.roster.routable hb) hall]
  exact .inr ⟨w, hw, hfiled⟩

/-- **A mail request that comes again finds everything in its place**, as long as nothing was
added. -/
theorem Grown.state_perform_again (h : Grown (o.perform q).state o') (ho : o.Sound)
    (ho' : o'.Sound) (hq : q.IsMail) : (o'.perform q).state = o' := by
  have hfirst : Grown o (o.perform q).state := hq.grown_perform ho
  have hwrites : o'.writes q = o.writes q := writes_congr (hfirst.trans h).alike hq.ne_addRule
  rw [state_perform ho'.roster, hwrites, after_eq_self_iff (register_notMem_writes hq.ne_addAccount)]
  intro n b' hb'
  -- the mailbox in front of the request, behind it, and now
  obtain ⟨b, hb⟩ : ∃ b, o.roster.mailbox? n = some b := by
    rcases Roster.mailbox?_cases_of_account? ((hfirst.trans h).alike.account? n) with
      ⟨-, hnone⟩ | ⟨b, -, hb, -⟩
    · rw [hnone] at hb'
      cases hb'
    · exact ⟨b, hb⟩
  obtain ⟨b₁, hb₁, hgrown⟩ := hfirst.mailbox hb
  obtain ⟨b₂, hb₂, hgrown'⟩ := h.mailbox hb₁
  obtain rfl : b₂ = b' := Option.some.inj (hb₂.symm.trans hb')
  have hfiled := Mailbox.filed?_congr (hgrown.trans hgrown').rulebook
  rw [Mailbox.run_eq_self_iff (ho'.roster.routable hb₂)]
  · intro w hw p m hm
    rw [hfiled] at hm
    exact hgrown'.kept (holds_of_filed ho hq hb hb₁ hw hm)
  · exact fun w hw => Mailbox.isSome_filed (isFiling_of_mem_writes hq hw) b₂

/-- **A mail that comes again changes nothing.** Let a reachable office receive or send a mail, and
let it be asked for anything then, without an account or a rule being added. The same request is
answered as before and leaves the office as it is. -/
theorem Reachable.perform_again (ho : o.Reachable) (hq : q.IsMail) {a : q.Answer}
    (ha : (o.perform q).answer = .ok a) (hqs : (o.perform q).state.AddsNothing qs) :
    ((o.perform q).state.run qs).perform q = ⟨.ok a, (o.perform q).state.run qs⟩ := by
  have hsound := ho.sound
  have hsound' : ((o.perform q).state.run qs).Sound := ((ho.perform q).run qs).sound
  have hfirst : Grown o (o.perform q).state := hq.grown_perform hsound
  have hlater : Grown (o.perform q).state ((o.perform q).state.run qs) :=
    .run (hsound.perform q) hqs
  have hanswer := (hfirst.trans hlater).answer_perform hsound hsound' hq
  have hstate := hlater.state_perform_again hsound hsound' hq
  calc ((o.perform q).state.run qs).perform q
      = ⟨(((o.perform q).state.run qs).perform q).answer,
          (((o.perform q).state.run qs).perform q).state⟩ := rfl
    _ = ⟨.ok a, (o.perform q).state.run qs⟩ := by rw [hanswer, ha, hstate]

/-- Account `a` sends a mail to both accounts, itself included. Then there are a new folder, another
mail, and requests that try to add an account and a rule. -/
def behindLetter : List Request :=
  [.createFolder "a" "/inbox/new", .addAccount "c" "a@x.com",
    .send "b" (letterFrom "b@x.com").toText "hello",
    .addRule "a" "/inbox/missing" "subject-includes: hello" 1]

theorem letter_again_neighbours :
    let behind := (neighbours.perform (.send "a" letterToBoth.toText "hi")).state.run behindLetter
    behind.perform (.send "a" letterToBoth.toText "hi") = ⟨.ok (), behind⟩ := by
  have hmail : Request.IsMail (.send "a" letterToBoth.toText "hi") := trivial
  exact reachable_neighbours.perform_again hmail (by decide +kernel) (by decide +kernel)

end Office

end SortingOffice
