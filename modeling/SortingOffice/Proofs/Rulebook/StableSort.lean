import Mathlib.Data.List.Induction
import Mathlib.Data.List.TakeWhile
import Mathlib.Tactic.SplitIfs
import SortingOffice.Rule.Rulebook

/-!
# The order of a rulebook

Rules come one after the other and are accepted or refused. The rulebook is at all times the list of
the accepted rules, sorted by priority, those of the same priority as they came.

* `Rule.Clashes`: two rules have the same priority and the same conditions.
* `IsStableSort`, with **`isStableSort_place`**: one rule more keeps the order.
* `Turns`: the place where a test on sorted rules stops to pass, however it is looked for.
* `IsFirst`, with **`find?_eq_some_iff_isFirst`**: the rule that decides about a mail.
* **`Rulebook.firstFor_place`**: how one rule more changes that.
* `Rulebook.collect`, `Rulebook.accepted`: the rulebook behind a sequence of requests, and the rules
  that were accepted.
* **`collect_isStableSort`**: all of this for every sequence of requests.
-/

namespace SortingOffice

/-- Two rules have the same priority and the same conditions, whatever their folders. -/
def Rule.Clashes (r s : Rule) : Prop :=
  r.priority = s.priority ∧ r.definition.conditions = s.definition.conditions

instance (r s : Rule) : Decidable (r.Clashes s) := inferInstanceAs (Decidable (_ ∧ _))

theorem Rule.Clashes.symm {r s : Rule} (h : r.Clashes s) : s.Clashes r := ⟨h.1.symm, h.2.symm⟩

theorem Definition.conditions_injective : Function.Injective Definition.conditions := by
  intro d e h
  simp only [conditions, Criterion.all, condition, words, List.map_cons, List.map_nil,
    List.cons.injEq, Condition.mk.injEq, true_and, and_true] at h
  obtain ⟨hs, hr, hj, hb⟩ := h
  cases d
  cases e
  simp_all

theorem Rule.conflictsWith_iff {r s : Rule} : r.conflictsWith s = true ↔ r.Clashes s := by
  rw [conflictsWith, Bool.and_eq_true, beq_iff_eq, beq_iff_eq, Clashes,
    Definition.conditions_injective.eq_iff]

/-! ## Sorting -/

/-- `sorted` is `l` in the order of priorities, the rules of each priority in the order in which
they stand in `l`. -/
structure IsStableSort (l sorted : List Rule) : Prop where
  ordered : sorted.Pairwise fun r s => r.priority ≤ s.priority
  perm : sorted.Perm l
  stable : ∀ p : Int32, (sorted.filter (·.priority = p)) = l.filter (·.priority = p)

/-- The test whether a rule stands before the place of a rule with priority `p`. -/
def upTo (p : Int32) (r : Rule) : Bool := r.priority ≤ p

theorem upTo_iff {p : Int32} {r : Rule} : upTo p r = true ↔ r.priority ≤ p := decide_eq_true_iff

theorem not_upTo_iff {p : Int32} {r : Rule} : upTo p r = false ↔ p < r.priority := by
  rw [upTo, decide_eq_false_iff_not, Int32.not_le]

/-- Behind the first rule of a greater priority, all priorities are greater. -/
theorem lt_of_mem_dropWhile {l : List Rule} (h : l.Pairwise fun r s => r.priority ≤ s.priority)
    {p : Int32} {s : Rule} (hs : s ∈ l.dropWhile (upTo p)) : p < s.priority := by
  induction l with
  | nil => cases hs
  | cons r l ih =>
    obtain ⟨hr, hl⟩ := List.pairwise_cons.1 h
    by_cases hp : upTo p r = true
    · rw [List.dropWhile_cons_of_pos hp] at hs
      exact ih hl hs
    · rw [List.dropWhile_cons_of_neg hp] at hs
      have hpr : p < r.priority := not_upTo_iff.1 (Bool.eq_false_iff.2 hp)
      rcases List.mem_cons.1 hs with rfl | hs
      · exact hpr
      · exact Int32.lt_of_lt_of_le hpr (hr s hs)

/-- The place of a new rule cuts sorted rules in two. -/
theorem Rulebook.exists_cut {book : Rulebook}
    (h : book.rules.Pairwise fun r s => r.priority ≤ s.priority) (r : Rule) :
    ∃ front back, book.rules = front ++ back ∧ (book.place r).rules = front ++ r :: back ∧
      (∀ s ∈ front, s.priority ≤ r.priority) ∧ ∀ s ∈ back, r.priority < s.priority :=
  ⟨book.rules.takeWhile (upTo r.priority), book.rules.dropWhile (upTo r.priority),
    List.takeWhile_append_dropWhile.symm, rfl,
    fun _ hs => upTo_iff.1 (List.mem_takeWhile_imp hs), fun _ hs => lt_of_mem_dropWhile h hs⟩

/-- **One rule more keeps the order.** -/
theorem Rulebook.isStableSort_place {l : List Rule} {book : Rulebook}
    (h : IsStableSort l book.rules) (r : Rule) : IsStableSort (l ++ [r]) (book.place r).rules := by
  obtain ⟨front, back, hcut, hplace, hfront, hback⟩ := exists_cut h.ordered r
  rw [hplace]
  refine ⟨?_, ?_, fun p => ?_⟩
  · have hordered := h.ordered
    rw [hcut, List.pairwise_append] at hordered
    obtain ⟨hf, hb, hfb⟩ := hordered
    rw [List.pairwise_append, List.pairwise_cons]
    refine ⟨hf, ⟨fun s hs => Int32.le_of_lt (hback s hs), hb⟩, fun s hs s' hs' => ?_⟩
    rcases List.mem_cons.1 hs' with rfl | hs'
    · exact hfront s hs
    · exact hfb s hs s' hs'
  · have hperm := h.perm
    rw [hcut] at hperm
    exact List.perm_middle.trans ((hperm.cons r).trans (List.perm_append_singleton r l).symm)
  · have hstable := h.stable p
    rw [hcut, List.filter_append] at hstable
    rw [List.filter_append, List.filter_append, ← hstable, List.filter_cons]
    by_cases hp : r.priority = p
    · -- no rule of the new rule's priority stands behind its place
      have hnone : back.filter (·.priority = p) = [] := by
        rw [List.filter_eq_nil_iff]
        intro s hs heq
        have hlt := hback s hs
        rw [hp, of_decide_eq_true heq] at hlt
        exact Int32.lt_irrefl hlt
      simp [hp, hnone]
    · simp [hp]

theorem Rulebook.pairwise_place {book : Rulebook}
    (h : book.rules.Pairwise fun r s => r.priority ≤ s.priority) (r : Rule) :
    (book.place r).rules.Pairwise fun r s => r.priority ≤ s.priority :=
  (isStableSort_place ⟨h, List.Perm.refl _, fun _ => rfl⟩ r).ordered

/-! ## The place of a new rule -/

/-- `n` is the place where a test that passes on the leading rules stops to pass. -/
def Turns (test : Rule → Bool) (l : List Rule) (n : Nat) : Prop :=
  n ≤ l.length ∧ (∀ r ∈ l.take n, test r = true) ∧ ∀ r ∈ l.drop n, test r = false

theorem Turns.le {test : Rule → Bool} {l : List Rule} {n k : Nat} (hn : Turns test l n)
    (hk : Turns test l k) : n ≤ k := by
  by_contra hlt
  have hkn : k < n := Nat.lt_of_not_le hlt
  have hl : k < l.length := Nat.lt_of_lt_of_le hkn hn.1
  have hpass := hn.2.1 l[k] (List.mem_take_iff_getElem.2 ⟨k, by omega, rfl⟩)
  have hfail := hk.2.2 l[k] (List.mem_drop_iff_getElem.2 ⟨0, by omega, rfl⟩)
  rw [hpass] at hfail
  cases hfail

theorem insertIdx_length_append (front back : List Rule) (r : Rule) :
    (front ++ back).insertIdx front.length r = front ++ r :: back := by
  induction front with
  | nil => rfl
  | cons s front ih =>
    rw [List.cons_append, List.length_cons, List.insertIdx_succ_cons, ih, List.cons_append]

/-- **Sorted rules have exactly one such place, and a new rule is put there.** -/
theorem Rulebook.place_eq_insertIdx {book : Rulebook}
    (h : book.rules.Pairwise fun r s => r.priority ≤ s.priority) (r : Rule) :
    ∃ n, (∀ k, Turns (upTo r.priority) book.rules k ↔ k = n) ∧
      (book.place r).rules = book.rules.insertIdx n r := by
  obtain ⟨front, back, hcut, hplace, hfront, hback⟩ := exists_cut h r
  have hturn : Turns (upTo r.priority) book.rules front.length := by
    rw [hcut]
    refine ⟨by simp, ?_, ?_⟩
    · rw [List.take_left]
      exact fun s hs => upTo_iff.2 (hfront s hs)
    · rw [List.drop_left]
      exact fun s hs => not_upTo_iff.2 (hback s hs)
  refine ⟨front.length, fun k => ⟨fun hk => Nat.le_antisymm (hk.le hturn) (hturn.le hk), ?_⟩, ?_⟩
  · rintro rfl
    exact hturn
  · rw [hplace, hcut, insertIdx_length_append]

/-! ## The rule that decides -/

/-- Of the rules of `l` that fit `m`, `r` has the least priority, and of those with that priority it
stands first. -/
def IsFirst (l : List Rule) (m : Mail) (r : Rule) : Prop :=
  ∃ i : Nat, l[i]? = some r ∧ r.fits m = true ∧ ∀ (j : Nat) (s : Rule), l[j]? = some s →
    s.fits m = true → r.priority < s.priority ∨ (r.priority = s.priority ∧ i ≤ j)

theorem IsFirst.unique {l : List Rule} {m : Mail} {r s : Rule} (hr : IsFirst l m r)
    (hs : IsFirst l m s) : r = s := by
  obtain ⟨i, hi, hfr, hmin⟩ := hr
  obtain ⟨j, hj, hfs, hmin'⟩ := hs
  have hij := hmin j s hj hfs
  have hji := hmin' i r hi hfr
  simp only [Int32.lt_iff_toInt_lt, ← Int32.toInt_inj] at hij hji
  have heq : i = j := by omega
  rw [heq, hj] at hi
  exact (Option.some.inj hi).symm

theorem isFirst_of_find? {l sorted : List Rule} (h : IsStableSort l sorted) {m : Mail} {r : Rule}
    (hfind : sorted.find? (·.fits m) = some r) : IsFirst l m r := by
  obtain ⟨hfit, front, back, rfl, hfront⟩ := List.find?_eq_some_iff_append.1 hfind
  -- among the rules of its priority `r` is the first that fits, also in `l`
  have hsame : (l.filter (·.priority = r.priority)).find? (·.fits m) = some r := by
    rw [← h.stable, List.find?_filter, List.find?_append]
    have hnone : front.find? (fun s => decide (decide (s.priority = r.priority) = true ∧
        s.fits m = true)) = none := by
      rw [List.find?_eq_none]
      intro s hs
      simpa using fun _ => by simpa using hfront s hs
    rw [hnone, Option.none_or, List.find?_cons_of_pos (by simpa using hfit)]
  rw [List.find?_filter, List.find?_eq_some_iff_getElem] at hsame
  obtain ⟨-, i, hi, hir, hmin⟩ := hsame
  refine ⟨i, by rw [List.getElem?_eq_getElem hi, hir], hfit, fun j s hj hs => ?_⟩
  have hmem : s ∈ front ++ r :: back := h.perm.mem_iff.2 (List.mem_of_getElem? hj)
  have hle : r.priority ≤ s.priority := by
    rcases List.mem_append.1 hmem with hmem | hmem
    · have := hfront s hmem
      rw [hs] at this
      cases this
    · rcases List.mem_cons.1 hmem with rfl | hmem
      · exact Int32.le_refl _
      · exact (List.pairwise_cons.1 (List.pairwise_append.1 h.ordered).2.1).1 s hmem
  by_cases heq : r.priority = s.priority
  · right
    refine ⟨heq, Nat.le_of_not_lt fun hji => ?_⟩
    have hno := hmin j hji
    obtain ⟨hjl, hjs⟩ := List.getElem?_eq_some_iff.1 hj
    rw [hjs] at hno
    simp [heq, hs] at hno
  · left
    rw [Int32.lt_iff_toInt_lt]
    rw [Int32.le_iff_toInt_le] at hle
    rw [← Int32.toInt_inj] at heq
    omega

/-- **The first rule that fits in sorted rules has the least priority and came first.** -/
theorem find?_eq_some_iff_isFirst {l sorted : List Rule} (h : IsStableSort l sorted) {m : Mail}
    {r : Rule} : sorted.find? (·.fits m) = some r ↔ IsFirst l m r := by
  refine ⟨isFirst_of_find? h, fun hr => ?_⟩
  obtain ⟨i, hi, hfit, -⟩ := id hr
  have hmem : r ∈ sorted := h.perm.mem_iff.2 (List.mem_of_getElem? hi)
  cases hfind : sorted.find? (·.fits m) with
  | none => exact absurd hfit (List.find?_eq_none.1 hfind r hmem)
  | some s => rw [(isFirst_of_find? h hfind).unique hr]

/-- **The rule that decides behind a new rule**: the new one, if it fits and no rule of the same or
a lower priority does, and else the rule that decided before. -/
theorem Rulebook.firstFor_place {book : Rulebook}
    (h : book.rules.Pairwise fun r s => r.priority ≤ s.priority) (r : Rule) (m : Mail) :
    (book.place r).firstFor m =
      if r.fits m = true ∧ ∀ s ∈ book.rules, s.fits m = true → r.priority < s.priority then some r
      else book.firstFor m := by
  obtain ⟨front, back, hcut, hplace, hfront, hback⟩ := exists_cut h r
  rw [firstFor, firstFor, hplace, hcut, List.find?_append, List.find?_append]
  by_cases hr : r.fits m = true
  · rw [List.find?_cons_of_pos (by exact hr)]
    cases hfind : front.find? (·.fits m) with
    | none =>
      have hlt : ∀ s ∈ front ++ back, s.fits m = true → r.priority < s.priority := by
        intro s hs hfits
        rcases List.mem_append.1 hs with hs | hs
        · exact absurd hfits (List.find?_eq_none.1 hfind s hs)
        · exact hback s hs
      rw [if_pos ⟨hr, hlt⟩, Option.none_or]
    | some t =>
      have ht : t ∈ front := List.mem_of_find?_eq_some hfind
      have hfits : t.fits m = true := (List.find?_eq_some_iff_append.1 hfind).1
      have hle : ¬ ∀ s ∈ front ++ back, s.fits m = true → r.priority < s.priority := fun hall =>
        Int32.not_le.2 (hall t (List.mem_append_left back ht) hfits) (hfront t ht)
      rw [if_neg fun hall => hle hall.2, Option.some_or, Option.some_or]
  · rw [List.find?_cons_of_neg (by exact hr), if_neg fun hall => hr hall.1]

/-! ## All sequences of requests -/

namespace Rulebook

/-- The rulebook behind a request for one more rule, the same as before if the rule is refused. -/
def request (book : Rulebook) (r : Rule) : Rulebook :=
  match book.insert r with
  | .error _ => book
  | .ok book => book

/-- The rules of a sequence of requests that are accepted, in the order in which they come. -/
def acceptedFrom (book : Rulebook) : List Rule → List Rule
  | [] => []
  | r :: rs =>
    match book.insert r with
    | .error _ => acceptedFrom book rs
    | .ok book => r :: acceptedFrom book rs

/-- The rulebook behind a sequence of requests, beginning without rules. -/
def collect (rs : List Rule) : Rulebook := rs.foldl request empty

/-- The accepted rules of a sequence of requests, beginning without rules. -/
def accepted (rs : List Rule) : List Rule := acceptedFrom empty rs

theorem collect_concat (rs : List Rule) (r : Rule) :
    collect (rs ++ [r]) = (collect rs).request r := by
  rw [collect, List.foldl_append, List.foldl_cons, List.foldl_nil]
  rfl

theorem acceptedFrom_concat (book : Rulebook) (rs : List Rule) (r : Rule) :
    acceptedFrom book (rs ++ [r]) =
      acceptedFrom book rs ++ acceptedFrom (rs.foldl request book) [r] := by
  induction rs generalizing book with
  | nil => rfl
  | cons s rs ih =>
    rw [List.cons_append, acceptedFrom, acceptedFrom, List.foldl_cons, request]
    cases book.insert s with
    | error fault => exact ih book
    | ok next => exact congrArg (s :: ·) (ih next)

theorem eq_place_of_insert {book book' : Rulebook} {r : Rule} (h : book.insert r = .ok book') :
    book' = book.place r := by
  rw [insert] at h
  split_ifs at h
  exact (Except.ok.inj h).symm

theorem mem_place {book : Rulebook} {r s : Rule} :
    s ∈ (book.place r).rules ↔ s = r ∨ s ∈ book.rules := by
  rw [place, List.mem_append, List.mem_cons, or_left_comm, ← List.mem_append,
    List.takeWhile_append_dropWhile]

theorem insert_eq {l : List Rule} {book : Rulebook} (h : book.rules.Perm l) (r : Rule) :
    book.insert r = if ∃ s ∈ l, s.Clashes r then .error (.ruleConflict r.priority r.folder)
      else .ok (book.place r) := by
  have hiff : book.rules.any (·.conflictsWith r) = true ↔ ∃ s ∈ l, s.Clashes r := by
    rw [List.any_eq_true]
    exact exists_congr fun s => and_congr h.mem_iff Rule.conflictsWith_iff
  rw [insert]
  split_ifs with hany hclash hclash
  · rfl
  · exact absurd (hiff.1 hany) hclash
  · exact absurd (hiff.2 hclash) hany
  · rfl

/-- A rule that is taken clashes with none. -/
theorem apart_of_insert {book book' : Rulebook} {r : Rule}
    (hapart : book.rules.Pairwise fun r s => ¬ r.Clashes s) (h : book.insert r = .ok book') :
    book'.rules.Pairwise fun r s => ¬ r.Clashes s := by
  have hfree : ¬ ∃ s ∈ book.rules, s.Clashes r := by
    intro hclash
    rw [insert_eq (List.Perm.refl _), if_pos hclash] at h
    cases h
  have hperm : (book.place r).rules.Perm (r :: book.rules) := by
    refine List.perm_middle.trans ?_
    rw [List.takeWhile_append_dropWhile]
  rw [eq_place_of_insert h, hperm.pairwise_iff fun hrs hsr => hrs hsr.symm, List.pairwise_cons]
  exact ⟨fun s hs hclash => hfree ⟨s, hs, hclash.symm⟩, hapart⟩

theorem concat_of_insert_error {rs : List Rule} {r : Rule} {fault : Fault}
    (h : (collect rs).insert r = .error fault) :
    collect (rs ++ [r]) = collect rs ∧ accepted (rs ++ [r]) = accepted rs := by
  rw [collect_concat, request, h]
  refine ⟨rfl, ?_⟩
  have hlast : acceptedFrom (collect rs) [r] = [] := by rw [acceptedFrom, h]; rfl
  rw [accepted, acceptedFrom_concat, ← collect, hlast, List.append_nil]
  rfl

theorem concat_of_insert_ok {rs : List Rule} {r : Rule} {book : Rulebook}
    (h : (collect rs).insert r = .ok book) :
    collect (rs ++ [r]) = book ∧ accepted (rs ++ [r]) = accepted rs ++ [r] := by
  rw [collect_concat, request, h]
  refine ⟨rfl, ?_⟩
  have hlast : acceptedFrom (collect rs) [r] = [r] := by rw [acceptedFrom, h]; rfl
  rw [accepted, acceptedFrom_concat, ← collect, hlast]
  rfl

theorem isStableSort_accepted (rs : List Rule) :
    IsStableSort (accepted rs) (collect rs).rules := by
  induction rs using List.reverseRecOn with
  | nil => exact ⟨List.Pairwise.nil, List.Perm.refl _, fun _ => rfl⟩
  | append_singleton rs r ih =>
    have hinsert := insert_eq ih.perm r
    split_ifs at hinsert
    · obtain ⟨hcollect, haccepted⟩ := concat_of_insert_error hinsert
      rw [hcollect, haccepted]
      exact ih
    · obtain ⟨hcollect, haccepted⟩ := concat_of_insert_ok hinsert
      rw [hcollect, haccepted]
      exact isStableSort_place ih r

theorem firstFor_eq_none_iff {l : List Rule} {book : Rulebook} (h : book.rules.Perm l) (m : Mail) :
    book.firstFor m = none ↔ ∀ r ∈ l, r.fits m = false := by
  rw [firstFor, List.find?_eq_none]
  simp only [h.mem_iff, Bool.not_eq_true]

/-- **A rulebook is the stable sort of the rules accepted so far.** Behind every sequence of
requests: a rule is refused exactly if an accepted rule has its priority and its conditions, and
then nothing changes; a rule that is accepted goes to the one place where the priorities turn
greater than its own; and a mail is decided by the fitting rule of the least priority that came
first, or by none if no accepted rule fits. -/
theorem collect_isStableSort (rs : List Rule) :
    IsStableSort (accepted rs) (collect rs).rules ∧
    (∀ r, if ∃ s ∈ accepted rs, s.Clashes r then
        (collect rs).insert r = .error (.ruleConflict r.priority r.folder) ∧
          collect (rs ++ [r]) = collect rs ∧ accepted (rs ++ [r]) = accepted rs
      else
        (collect rs).insert r = .ok (collect (rs ++ [r])) ∧
          accepted (rs ++ [r]) = accepted rs ++ [r] ∧
          ∃ n, (∀ k, Turns (upTo r.priority) (collect rs).rules k ↔ k = n) ∧
            (collect (rs ++ [r])).rules = (collect rs).rules.insertIdx n r) ∧
    ∀ m, ((collect rs).firstFor m = none ↔ ∀ r ∈ accepted rs, r.fits m = false) ∧
      ∀ r, (collect rs).firstFor m = some r ↔ IsFirst (accepted rs) m r := by
  have hsort := isStableSort_accepted rs
  refine ⟨hsort, fun r => ?_, fun m => ⟨firstFor_eq_none_iff hsort.perm m, fun r =>
    find?_eq_some_iff_isFirst hsort⟩⟩
  have hinsert := insert_eq hsort.perm r
  split_ifs at hinsert ⊢
  · exact ⟨hinsert, concat_of_insert_error hinsert⟩
  · obtain ⟨hcollect, haccepted⟩ := concat_of_insert_ok hinsert
    rw [hcollect]
    exact ⟨hinsert, haccepted, place_eq_insertIdx hsort.ordered r⟩

end Rulebook

end SortingOffice
