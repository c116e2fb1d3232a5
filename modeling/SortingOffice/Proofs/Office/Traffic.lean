import Mathlib.Data.List.Perm.Basic
import SortingOffice.Proofs.Mailbox.Exchange
import SortingOffice.Proofs.Office.Effect
import SortingOffice.Proofs.Office.Writes

/-!
# Requests to an office in another order

Mail changes neither the accounts nor the rules, and these decide what a mail request writes and
answers. So every mail request does what it would have done as the first one, and the mailboxes do
not mind the order.

* `Office.Interchangeable`: two requests that can come in either order.
* **`Request.IsMail.answer_after`**, **`Reachable.run_perm`**: what mail requests answer behind
  others, and the office behind mail requests in any order.
* **`Reachable.interchangeable_of_ne`**, **`Reachable.interchangeable_createFolder`**: requests for
  different accounts, and a new folder with a mail request.
* **`Reachable.order_irrelevant`**: the statement for all these requests.
-/

namespace SortingOffice

theorem Mailbox.create_ask_congr {b b' : Mailbox} {p : Path}
    (h : b'.folders.parentForNew p = b.folders.parentForNew p) :
    ((b'.create p).ask fun b p => (b.folders.parent p).map (·.getD .root)).answer =
      ((b.create p).ask fun b p => (b.folders.parent p).map (·.getD .root)).answer := by
  cases hparent : b.folders.parentForNew p with
  | error fault =>
    rw [create_of_error hparent, create_of_error (h.trans hparent)]
    rfl
  | ok parent => rw [create_ask_of_ok hparent, create_ask_of_ok (h.trans hparent)]

namespace Office

/-- Two requests can come in either order: the office behind them is the same, and each is answered
as if the other one had not come. -/
structure Interchangeable (o : Office) (q q' : Request) : Prop where
  state : ((o.perform q).state.perform q').state = ((o.perform q').state.perform q).state
  first : ((o.perform q').state.perform q).answer = (o.perform q).answer
  second : ((o.perform q).state.perform q').answer = (o.perform q').answer

variable {o : Office} {q q' : Request} {qs qs' : List Request} {ws ws' : List Roster.Request}
  {n : String} {b : Mailbox} {w : Mailbox.Request}

/-! ## Mail requests behind others -/

theorem Reachable.housed (ho : o.Reachable) (hb : o.roster.mailbox? n = some b) : b.Housed :=
  ho.forall_mailbox Mailbox.housed_initial (fun _ q hb => hb.step q) hb

theorem isFiling_of_mem_deliveries {m : Mail} {names : List String}
    (hw : .edit n w ∈ deliveries m names) : w.IsFiling := by
  obtain ⟨n', -, hw⟩ := List.mem_map.1 hw
  rw [← (Roster.Request.edit.inj hw).2]
  trivial

theorem isFiling_of_mem_writes (hq : q.IsMail) (hw : w ∈ Roster.requestsFor n (o.writes q)) :
    w.IsFiling := by
  rw [Roster.mem_requestsFor] at hw
  cases q with
  | addAccount name email => cases hq
  | createFolder name path => cases hq
  | addRule name path definition priority => cases hq
  | receive name header content =>
    rw [writes, mem_behind] at hw
    obtain ⟨x, -, hw⟩ := hw
    exact isFiling_of_mem_deliveries hw
  | send name header content =>
    rw [writes, mem_behind] at hw
    obtain ⟨x, -, hw⟩ := hw
    rcases List.mem_cons.1 hw with hw | hw
    · rw [(Roster.Request.edit.inj hw).2]
      trivial
    · exact isFiling_of_mem_deliveries hw

/-- **A mail request is answered as if it came first**, behind any requests that add neither
accounts nor rules. -/
theorem Request.IsMail.answer_after (hq : q.IsMail) (hr : o.roster.Sound)
    (hregister : ∀ a, .register a ∉ ws) (hrule : ∀ n r, .edit n (.addRule r) ∉ ws) :
    ((o.after ws).perform q).answer = (o.perform q).answer := by
  have halike : Alike o (o.after ws) := alike_after hregister
  cases q with
  | addAccount name email => cases hq
  | createFolder name path => cases hq
  | addRule name path definition priority => cases hq
  | receive name header content =>
    refine answer_receive_congr hr (hr.run ws) halike ?_ header content
    intro b b' hb hb'
    rw [roster_after, Roster.mailbox?_run_of_some hb] at hb'
    rw [← Option.some.inj hb', Mailbox.rulebook_run]
    exact fun r hmem => hrule name r (Roster.mem_requestsFor.1 hmem)
  | send name header content =>
    exact answer_send_congr hr (hr.run ws) halike name header content

/-- What mail requests write, one after the other. -/
theorem Reachable.run_of_isMail (ho : o.Reachable) (hqs : ∀ q ∈ qs, q.IsMail) :
    o.run qs = o.after (qs.flatMap o.writes) := by
  induction qs generalizing o with
  | nil => rfl
  | cons q qs ih =>
    obtain ⟨hq, hqs⟩ := List.forall_mem_cons.1 hqs
    have hstate := state_perform ho.sound.roster q
    have halike := alike_perform ho.sound.roster hq.ne_addAccount
    -- there are the same accounts behind it, so the others write what they would have written
    have hwrites : qs.flatMap (o.perform q).state.writes = qs.flatMap o.writes :=
      List.flatMap_congr fun q' hq' => writes_congr halike (hqs q' hq').ne_addRule
    rw [run_cons, ih (ho.perform q) hqs, hwrites, hstate, List.flatMap_cons, after_append]

theorem register_notMem_flatMap (hqs : ∀ q ∈ qs, q.IsMail) (a : Account) :
    .register a ∉ qs.flatMap o.writes := by
  intro ha
  obtain ⟨q, hq, ha⟩ := List.mem_flatMap.1 ha
  exact register_notMem_writes (hqs q hq).ne_addAccount a ha

theorem isFiling_of_mem_flatMap (hqs : ∀ q ∈ qs, q.IsMail)
    (hw : w ∈ Roster.requestsFor n (qs.flatMap o.writes)) : w.IsFiling := by
  obtain ⟨q, hq, hw⟩ := List.mem_flatMap.1 (Roster.mem_requestsFor.1 hw)
  exact isFiling_of_mem_writes (hqs q hq) (Roster.mem_requestsFor.2 hw)

/-- **Mail requests leave the same office in any order.** -/
theorem Reachable.run_perm (ho : o.Reachable) (hqs : ∀ q ∈ qs, q.IsMail) (hperm : qs.Perm qs') :
    o.run qs = o.run qs' := by
  have hqs' : ∀ q ∈ qs', q.IsMail := fun q hq => hqs q (hperm.mem_iff.2 hq)
  have hwrites : (qs.flatMap o.writes).Perm (qs'.flatMap o.writes) :=
    hperm.flatMap fun _ _ => List.Perm.refl _
  rw [ho.run_of_isMail hqs, ho.run_of_isMail hqs', after, after]
  congr 1
  refine Roster.run_congr (register_notMem_flatMap hqs) (register_notMem_flatMap hqs') ?_
  intro n b hb
  refine Mailbox.run_perm (Roster.requestsFor_perm hwrites n) (ho.housed hb) ?_
  intro w hw w' hw'
  exact Mailbox.commutes_filing (isFiling_of_mem_flatMap hqs hw) (isFiling_of_mem_flatMap hqs hw')

/-- **A mail request is answered in the same way behind any others.** -/
theorem Reachable.answer_run (ho : o.Reachable) (hqs : ∀ q ∈ qs, q.IsMail) (hq : q.IsMail) :
    ((o.run qs).perform q).answer = (o.perform q).answer := by
  rw [ho.run_of_isMail hqs]
  refine hq.answer_after ho.sound.roster (register_notMem_flatMap hqs) ?_
  intro n r hmem
  exact isFiling_of_mem_flatMap hqs (Roster.mem_requestsFor.2 hmem)

/-! ## Two requests -/

/-- Requests that write the same in either order, and whose writes can be swapped. -/
theorem Reachable.state_perform_comm (ho : o.Reachable)
    (hwrites : (o.perform q').state.writes q = o.writes q)
    (hwrites' : (o.perform q).state.writes q' = o.writes q')
    (hcomm : o.after (o.writes q ++ o.writes q') = o.after (o.writes q' ++ o.writes q)) :
    ((o.perform q).state.perform q').state = ((o.perform q').state.perform q).state := by
  rw [state_perform (ho.perform q).sound.roster, state_perform (ho.perform q').sound.roster,
    hwrites, hwrites', state_perform ho.sound.roster, state_perform ho.sound.roster,
    ← after_append, ← after_append, hcomm]

/-- Requests on the roster can be swapped if each mailbox does not mind. -/
theorem after_append_comm (hregister : ∀ a, .register a ∉ ws) (hregister' : ∀ a, .register a ∉ ws')
    (h : ∀ n b, o.roster.mailbox? n = some b →
      b.run (Roster.requestsFor n ws ++ Roster.requestsFor n ws') =
        b.run (Roster.requestsFor n ws' ++ Roster.requestsFor n ws)) :
    o.after (ws ++ ws') = o.after (ws' ++ ws) := by
  rw [after, after]
  congr 1
  refine Roster.run_congr (by simp [hregister, hregister']) (by simp [hregister, hregister']) ?_
  intro n b hb
  rw [Roster.requestsFor_append, Roster.requestsFor_append, h n b hb]

/-- A request that writes to its own mailbox only leaves the others as they are. -/
theorem mailbox?_perform_of_ne (hr : o.roster.Sound) (hq : q.IsLocal) (hn : q.account ≠ n) :
    (o.perform q).state.roster.mailbox? n = o.roster.mailbox? n := by
  rw [state_perform hr, roster_after]
  cases hb : o.roster.mailbox? n with
  | none => exact Roster.mailbox?_run_of_none hb (register_notMem_writes hq.ne_addAccount)
  | some b =>
    rw [Roster.mailbox?_run_of_some hb, requestsFor_writes_of_ne hq hn, Mailbox.run_nil]

/-- **Requests for different accounts can come in either order.** -/
theorem Reachable.interchangeable_of_ne (ho : o.Reachable) (hq : q.IsLocal) (hq' : q'.IsLocal)
    (hne : q.account ≠ q'.account) : o.Interchangeable q q' := by
  have hr := ho.sound.roster
  have halike := alike_perform hr hq.ne_addAccount
  have halike' := alike_perform hr hq'.ne_addAccount
  have hsame := mailbox?_perform_of_ne hr hq hne
  have hsame' := mailbox?_perform_of_ne hr hq' (Ne.symm hne)
  refine ⟨ho.state_perform_comm (writes_congr_of_mailbox? halike' hsame')
    (writes_congr_of_mailbox? halike hsame) ?_, ?_, ?_⟩
  · refine after_append_comm (register_notMem_writes hq.ne_addAccount)
      (register_notMem_writes hq'.ne_addAccount) fun n b _ => ?_
    by_cases hn : q.account = n
    · rw [requestsFor_writes_of_ne hq' (hn ▸ Ne.symm hne), List.append_nil, List.nil_append]
    · rw [requestsFor_writes_of_ne hq hn, List.append_nil, List.nil_append]
  · exact answer_congr hr (ho.perform q').sound.roster halike' hsame'
  · exact answer_congr hr (ho.perform q).sound.roster halike hsame

/-- A new folder is answered as if it came first, behind any requests that only file mail. -/
theorem Reachable.answer_createFolder_after (ho : o.Reachable) (hregister : ∀ a, .register a ∉ ws)
    (hfiling : ∀ n, ∀ w ∈ Roster.requestsFor n ws, w.IsFiling) (name path : String) :
    ((o.after ws).createFolder name path).answer = (o.createFolder name path).answer := by
  refine answer_guarded_congr rfl fun _ _ => ?_
  rw [onMailbox, onMailbox, roster_after]
  cases hb : o.roster.mailbox? name with
  | none =>
    rw [Roster.edit_of_none hb, Roster.edit_of_none (Roster.mailbox?_run_of_none hb hregister)]
  | some b =>
    rw [Roster.edit_of_some hb, Roster.edit_of_some (Roster.mailbox?_run_of_some hb ws)]
    refine Mailbox.create_ask_congr (FolderTree.parentForNew_congr ?_ _)
    refine (ho.housed hb).links_run ?_
    rintro w hw p rfl
    exact hfiling name _ hw

/-- **A folder can be created before a mail request or behind it.** -/
theorem Reachable.interchangeable_createFolder (ho : o.Reachable) (hq : q.IsMail)
    (name path : String) : o.Interchangeable (.createFolder name path) q := by
  have hr := ho.sound.roster
  have hadd : ∀ name' email, Request.createFolder name path ≠ .addAccount name' email := by simp
  have hregister (a : Account) : .register a ∉ o.writes (.createFolder name path) :=
    register_notMem_writes hadd a
  have hregister' (a : Account) : .register a ∉ o.writes q :=
    register_notMem_writes hq.ne_addAccount a
  have hcreate {n w} (hw : w ∈ Roster.requestsFor n (o.writes (.createFolder name path))) :
      w = .create ⟨path⟩ := by
    rw [Roster.mem_requestsFor, writes, mem_behind] at hw
    obtain ⟨-, -, hw⟩ := hw
    exact (Roster.Request.edit.inj (List.mem_singleton.1 hw)).2
  refine ⟨ho.state_perform_comm rfl (writes_congr (alike_perform hr hadd) hq.ne_addRule) ?_, ?_, ?_⟩
  · refine after_append_comm hregister hregister' fun n b hb => ?_
    refine Mailbox.run_append_comm (ho.housed hb) ?_
    intro w hw w' hw'
    rw [hcreate hw]
    exact Mailbox.commutes_create _ (isFiling_of_mem_writes hq hw')
  · rw [state_perform hr q]
    exact ho.answer_createFolder_after hregister' (fun _ _ => isFiling_of_mem_writes hq) name path
  · rw [state_perform hr]
    refine hq.answer_after hr hregister ?_
    intro n r hmem
    cases hcreate (Roster.mem_requestsFor.2 hmem)

/-! ## All these requests -/

/-- **The order does not matter.** Let an office be reachable. Mails that are received and sent can
come in any order: the office behind them is the same, and each of these requests is answered in the
same way in all orders, whether it fails or not. Two requests for different accounts that create
a folder, add a rule or receive a mail can come in either order, and so can a new folder and a mail
that is received or sent. -/
theorem Reachable.order_irrelevant (ho : o.Reachable) :
    (∀ qs qs', (∀ q ∈ qs, q.IsMail) → qs.Perm qs' → o.run qs = o.run qs' ∧
      ∀ q before after before' after', qs = before ++ q :: after →
        qs' = before' ++ q :: after' →
        ((o.run before).perform q).answer = ((o.run before').perform q).answer) ∧
    (∀ q q', q.IsLocal → q'.IsLocal → q.account ≠ q'.account → o.Interchangeable q q') ∧
    ∀ name path q, q.IsMail → o.Interchangeable (.createFolder name path) q := by
  refine ⟨?_, fun q q' hq hq' hne => ho.interchangeable_of_ne hq hq' hne,
    fun name path q hq => ho.interchangeable_createFolder hq name path⟩
  intro qs qs' hqs hperm
  have hqs' : ∀ q ∈ qs', q.IsMail := fun q hq => hqs q (hperm.mem_iff.2 hq)
  refine ⟨ho.run_perm hqs hperm, ?_⟩
  rintro q before after before' after' rfl rfl
  obtain ⟨hbefore, hrest⟩ := List.forall_mem_append.1 hqs
  obtain ⟨hbefore', -⟩ := List.forall_mem_append.1 hqs'
  have hq : q.IsMail := hrest q List.mem_cons_self
  rw [ho.answer_run hbefore hq, ho.answer_run hbefore' hq]

/-- Account `a` sends a mail to both accounts, and account `b` receives another one. -/
theorem order_irrelevant_neighbours :
    neighbours.run [.send "a" letterToBoth.toText "hi",
        .receive "b" (letterFrom "a@x.com").toText "hello"] =
      neighbours.run [.receive "b" (letterFrom "a@x.com").toText "hello",
        .send "a" letterToBoth.toText "hi"] :=
  (reachable_neighbours.order_irrelevant.1 _ _ (by simp [Request.IsMail])
    (List.Perm.swap _ _ [])).1

end Office

end SortingOffice
