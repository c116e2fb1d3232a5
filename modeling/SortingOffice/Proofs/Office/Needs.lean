import SortingOffice.Fault
import SortingOffice.Outcome

/-!
# Checks in a fixed order

A request is checked for one thing after the other, and the first that is missing is the answer. What
such a check does is said by the list of the things that it looks for.

* `Need`, `Need.AllMet`, `Need.FirstMissing`: what is looked for, and the first that is missing.
* `Follows`: a check looks for the needs of a list in their order.
* **`Follows.bind`**, `Follows.guarded`, `follows_single`, `follows_find?`: checks put together.
* **`Follows.exists_eq_ok_iff`**, **`Follows.eq_error_iff`**: when a check passes, and how it fails.
-/

namespace SortingOffice

/-- Something that a request needs, and the fault if it is missing. -/
structure Need where
  met : Prop
  fault : Fault

namespace Need

/-- Nothing on a list is missing. -/
def AllMet (needs : List Need) : Prop := ∀ need ∈ needs, need.met

/-- The first thing on a list that is missing has this fault. -/
def FirstMissing (needs : List Need) (fault : Fault) : Prop :=
  ∃ front need back, needs = front ++ need :: back ∧ AllMet front ∧ ¬ need.met ∧
    need.fault = fault

variable {needs needs' : List Need} {need : Need} {fault fault' : Fault}

theorem allMet_cons : AllMet (need :: needs) ↔ need.met ∧ AllMet needs := List.forall_mem_cons

theorem allMet_append : AllMet (needs ++ needs') ↔ AllMet needs ∧ AllMet needs' :=
  List.forall_mem_append

theorem not_firstMissing_nil : ¬ FirstMissing [] fault := by
  rintro ⟨front, need, back, h, -⟩
  exact absurd h (by simp)

theorem firstMissing_cons : FirstMissing (need :: needs) fault ↔
    (¬ need.met ∧ need.fault = fault) ∨ (need.met ∧ FirstMissing needs fault) := by
  constructor
  · rintro ⟨front, need', back, hneeds, hfront, hmet, hfault⟩
    cases front with
    | nil =>
      obtain ⟨rfl, rfl⟩ := List.cons.inj hneeds
      exact .inl ⟨hmet, hfault⟩
    | cons first front =>
      obtain ⟨rfl, rfl⟩ := List.cons.inj hneeds
      obtain ⟨hfirst, hfront⟩ := allMet_cons.1 hfront
      exact .inr ⟨hfirst, front, need', back, rfl, hfront, hmet, hfault⟩
  · rintro (⟨hmet, hfault⟩ | ⟨hmet, front, need', back, rfl, hfront, hmet', hfault⟩)
    · exact ⟨[], need, needs, rfl, List.forall_mem_nil _, hmet, hfault⟩
    · exact ⟨need :: front, need', back, rfl, allMet_cons.2 ⟨hmet, hfront⟩, hmet', hfault⟩

/-- Something is missing in a list that is not met. -/
theorem FirstMissing.not_allMet (h : FirstMissing needs fault) : ¬ AllMet needs := by
  obtain ⟨front, need, back, rfl, -, hmet, -⟩ := h
  exact fun hall => hmet (hall need (by simp))

/-- Only one thing is the first that is missing. -/
theorem FirstMissing.unique (h : FirstMissing needs fault) (h' : FirstMissing needs fault') :
    fault = fault' := by
  induction needs with
  | nil => exact absurd h not_firstMissing_nil
  | cons need needs ih =>
    rcases firstMissing_cons.1 h with ⟨hmet, hfault⟩ | ⟨hmet, hrest⟩ <;>
      rcases firstMissing_cons.1 h' with ⟨hmet', hfault'⟩ | ⟨hmet', hrest'⟩
    · rw [← hfault, hfault']
    · exact absurd hmet' hmet
    · exact absurd hmet hmet'
    · exact ih hrest hrest'

theorem FirstMissing.append_right (h : FirstMissing needs fault) (needs' : List Need) :
    FirstMissing (needs ++ needs') fault := by
  obtain ⟨front, need, back, rfl, hfront, hmet, hfault⟩ := h
  exact ⟨front, need, back ++ needs', by simp, hfront, hmet, hfault⟩

theorem FirstMissing.append_left (hneeds : AllMet needs) (h : FirstMissing needs' fault) :
    FirstMissing (needs ++ needs') fault := by
  obtain ⟨front, need, back, rfl, hfront, hmet, hfault⟩ := h
  exact ⟨needs ++ front, need, back, by simp, allMet_append.2 ⟨hneeds, hfront⟩, hmet, hfault⟩

end Need

/-! ## Checks -/

open Need

/-- A check looks for the needs of a list in their order: if it passes all are met, and if it fails
its fault is that of the first that is missing. -/
def Follows {α : Type} (needs : List Need) : Except Fault α → Prop
  | .ok _ => AllMet needs
  | .error fault => FirstMissing needs fault

variable {α β σ : Type} {needs needs' : List Need} {x : Except Fault α} {fault : Fault}

/-- **A check passes exactly if nothing is missing.** -/
theorem Follows.exists_eq_ok_iff (hx : Follows needs x) : (∃ a, x = .ok a) ↔ AllMet needs := by
  cases x with
  | ok a => exact iff_of_true ⟨a, rfl⟩ hx
  | error fault => exact iff_of_false (by simp) hx.not_allMet

/-- **A check fails for the first thing that is missing.** -/
theorem Follows.eq_error_iff (hx : Follows needs x) :
    x = .error fault ↔ FirstMissing needs fault := by
  cases x with
  | ok a => exact iff_of_false nofun fun h => h.not_allMet hx
  | error fault' =>
    rw [Except.error.injEq]
    exact ⟨fun h => h ▸ hx, fun h => FirstMissing.unique hx h⟩

/-- **A check behind a check.** -/
theorem Follows.bind {f : α → Except Fault β} (hx : Follows needs x)
    (hf : ∀ a, x = .ok a → Follows needs' (f a)) : Follows (needs ++ needs') (x >>= f) := by
  cases x with
  | error fault => exact hx.append_right needs'
  | ok a =>
    show Follows (needs ++ needs') (f a)
    have hfa := hf a rfl
    cases hb : f a with
    | ok b =>
      rw [hb] at hfa
      exact allMet_append.2 ⟨hx, hfa⟩
    | error fault =>
      rw [hb] at hfa
      exact FirstMissing.append_left hx hfa

/-- A check behind a check for one thing. -/
theorem Follows.cons {need : Need} {f : α → Except Fault β} (hx : Follows [need] x)
    (hf : ∀ a, x = .ok a → Follows needs (f a)) : Follows (need :: needs) (x >>= f) :=
  hx.bind hf

theorem Follows.map (hx : Follows needs x) (f : α → β) : Follows needs (x.map f) := by
  cases x with
  | ok a => exact hx
  | error fault => exact hx

/-- A check for one thing. -/
theorem follows_single {need : Need} (hmet : need.met → ∃ a, x = .ok a)
    (hmissing : ¬ need.met → x = .error need.fault) : Follows [need] x := by
  by_cases h : need.met
  · obtain ⟨a, rfl⟩ := hmet h
    exact allMet_cons.2 ⟨h, List.forall_mem_nil _⟩
  · rw [hmissing h]
    exact firstMissing_cons.2 (.inl ⟨h, rfl⟩)

/-- A check that looks for the first member of a list that is bad. -/
theorem follows_find? {ι : Type} {l : List ι} {need : ι → Need} {bad : ι → Bool}
    (hbad : ∀ i, bad i = false ↔ (need i).met) (hnone : l.find? bad = none → ∃ a, x = .ok a)
    (hsome : ∀ i, l.find? bad = some i → x = .error (need i).fault) :
    Follows (l.map need) x := by
  cases hfind : l.find? bad with
  | none =>
    obtain ⟨a, rfl⟩ := hnone hfind
    intro n hn
    obtain ⟨i, hi, rfl⟩ := List.mem_map.1 hn
    exact (hbad i).1 (by simpa using List.find?_eq_none.1 hfind i hi)
  | some i =>
    rw [hsome i hfind]
    obtain ⟨hi, front, back, rfl, hfront⟩ := List.find?_eq_some_iff_append.1 hfind
    refine ⟨front.map need, need i, back.map need, by simp, ?_, ?_, rfl⟩
    · intro n hn
      obtain ⟨j, hj, rfl⟩ := List.mem_map.1 hn
      exact (hbad j).1 (by simpa using hfront j hj)
    · rw [← hbad, hi]
      exact Bool.true_eq_false.mp

/-- A change behind a check. -/
theorem Follows.guarded {s : σ} {change : α → Outcome σ β} (hx : Follows needs x)
    (hchange : ∀ a, x = .ok a → Follows needs' (change a).answer) :
    Follows (needs ++ needs') (Outcome.guarded s x change).answer := by
  have hanswer : (Outcome.guarded s x change).answer = x >>= fun a => (change a).answer := by
    cases x <;> rfl
  rw [hanswer]
  exact hx.bind hchange

end SortingOffice
