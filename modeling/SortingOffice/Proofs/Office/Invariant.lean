import SortingOffice.Proofs.Json.Settings
import SortingOffice.Proofs.Office.Run

/-!
# What an office keeps to

The settings are checked when an office is opened, accounts and priorities when they are added, and
folders by the mailbox that gets a rule. What all these checks are for holds at all times.

* **`Reachable.invariant`**: settings, accounts and rules of every reachable office.
-/

namespace SortingOffice

namespace Office

variable {o : Office}

/-- **What every reachable office keeps to.** Its settings make sense. Each mailbox is under the name
of its account, no account has a blank name or a blank address, and no two have the same address.
The priority of each rule is in the range of the settings, and its folder is in the mailbox. -/
theorem Reachable.invariant (ho : o.Reachable) :
    (1 ≤ o.settings.leastPriority ∧ o.settings.leastPriority ≤ o.settings.greatestPriority) ∧
      (∀ n b, o.roster.mailbox? n = some b → b.account.name = n ∧
        Text.isBlankText b.account.name = false ∧ Text.isBlankText b.account.email = false) ∧
      (∀ n n' b b', o.roster.mailbox? n = some b → o.roster.mailbox? n' = some b' →
        b.account.email = b'.account.email → n = n') ∧
      ∀ n b, o.roster.mailbox? n = some b → ∀ r ∈ b.rulebook.rules,
        (o.settings.leastPriority ≤ r.priority ∧ r.priority ≤ o.settings.greatestPriority) ∧
          b.folders.contains r.folder = true := by
  have hsound := ho.sound
  refine ⟨Settings.check_eq_ok.1 hsound.settings, ?_, ?_, ?_⟩
  · intro n b hb
    exact ⟨hsound.roster.named hb, hsound.complete hb⟩
  · intro n n' b b' hb hb' hemail
    exact hsound.roster.distinct hb hb' hemail
  · intro n b hb r hr
    exact ⟨hsound.ranged hb r hr, hsound.roster.routable hb r hr⟩

/-- An office for priorities from 2 to 5, where account `a` has a rule for a folder of its own. -/
def narrow : Office :=
  run ⟨.empty, ⟨2, 5, true⟩⟩ [.addAccount "a" "a@x.com", .createFolder "a" "/inbox/school",
    .addRule "a" "/inbox/school" "subject-includes: exam" 5]

theorem reachable_narrow : narrow.Reachable :=
  Reachable.run (.opened (openWith_eq_ok.2 ⟨rfl, rfl⟩)) _

/-- The rule was added, so it is in the range and has its folder. -/
theorem invariant_narrow : ∃ b r, narrow.roster.mailbox? "a" = some b ∧ b.rulebook.rules = [r] ∧
    (2 ≤ r.priority ∧ r.priority ≤ 5) ∧ b.folders.contains r.folder = true := by
  have hsettings : narrow.settings = ⟨2, 5, true⟩ := by decide +kernel
  have hrules : (narrow.roster.mailbox? "a").map (fun b => b.rulebook.rules.length) = some 1 := by
    decide +kernel
  obtain ⟨b, hb, hlength⟩ := Option.map_eq_some_iff.1 hrules
  obtain ⟨r, hr⟩ := List.length_eq_one_iff.1 hlength
  obtain ⟨hrange, hfolder⟩ := reachable_narrow.invariant.2.2.2 "a" b hb r (by simp [hr])
  rw [hsettings] at hrange
  exact ⟨b, r, hb, hr, hrange, hfolder⟩

end Office

end SortingOffice
