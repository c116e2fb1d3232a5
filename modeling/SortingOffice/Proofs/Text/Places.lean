import Mathlib.Order.Bounds.Defs
import SortingOffice.Proofs.Text.Search

/-!
# Where a key stands

A key may stand at several places of a text, and some of them may overlap. The count from the left
leaves out a place that begins within a match. There is no such place if the key has no border: then
it ends with nothing that it begins with, except for itself.

* `StandsAt`: the places of a key, by the number of characters in front.
* **`after?_eq_some_iff`**: what follows the leftmost place.
* `places`, `mem_places`: all places in order.
* `Unbordered`, `apart_tail_iff`: keys without a border.
* **`countFrom_eq_length_places_iff`**: the count from the left is the number of all places exactly
  if the key has no border.
* `FirstIsLast`, **`length_places_le_one_iff`**, **`countFrom_le_one_iff`**: keys whose first place
  is the last one.
-/

namespace SortingOffice.Text

variable {key cs back : List Char} {c : Char} {i : Nat}

/-! ## Places -/

/-- The key stands in the text with `i` characters in front of it. -/
def StandsAt (key cs : List Char) (i : Nat) : Prop :=
  ∃ front back, cs = front ++ key ++ back ∧ front.length = i

theorem standsAt_iff : StandsAt key cs i ↔ i ≤ cs.length ∧ key <+: cs.drop i := by
  constructor
  · rintro ⟨front, back, rfl, rfl⟩
    rw [List.append_assoc, List.drop_left]
    exact ⟨by simp, List.prefix_append key back⟩
  · rintro ⟨hi, back, hback⟩
    refine ⟨cs.take i, back, ?_, List.length_take_of_le hi⟩
    rw [List.append_assoc, hback, List.take_append_drop]

@[simp] theorem standsAt_zero : StandsAt key cs 0 ↔ key <+: cs := by
  simp [standsAt_iff]

@[simp] theorem standsAt_succ : StandsAt key (c :: cs) (i + 1) ↔ StandsAt key cs i := by
  simp [standsAt_iff]

theorem exists_standsAt_iff : (∃ i, StandsAt key cs i) ↔ key <:+: cs := by
  constructor
  · rintro ⟨_, front, back, hcs, -⟩
    exact ⟨front, back, hcs.symm⟩
  · rintro ⟨front, back, hcs⟩
    exact ⟨front.length, front, back, hcs.symm, rfl⟩

theorem exists_leftmost (h : after? key cs = some back) :
    ∃ front, cs = front ++ key ++ back ∧ ∀ i, StandsAt key cs i → front.length ≤ i := by
  induction cs with
  | nil =>
    rw [after?] at h
    split_ifs at h with hempty
    refine ⟨[], ?_, fun i _ => Nat.zero_le i⟩
    rw [List.isEmpty_iff.1 hempty, ← Option.some.inj h]
    rfl
  | cons c cs ih =>
    rw [after?] at h
    split_ifs at h with hprefix
    · obtain ⟨rest, hrest⟩ := List.isPrefixOf_iff_prefix.1 hprefix
      rw [← hrest, List.drop_left] at h
      exact ⟨[], by rw [← hrest, Option.some.inj h]; rfl, fun i _ => Nat.zero_le i⟩
    · obtain ⟨front, hcs, hfirst⟩ := ih h
      refine ⟨c :: front, by rw [hcs]; rfl, ?_⟩
      intro i hi
      cases i with
      | zero => exact absurd (List.isPrefixOf_iff_prefix.2 (standsAt_zero.1 hi)) hprefix
      | succ i => exact Nat.succ_le_succ (hfirst i (standsAt_succ.1 hi))

/-- **What follows the leftmost place of a key.** -/
theorem after?_eq_some_iff : after? key cs = some back ↔
    ∃ front, cs = front ++ key ++ back ∧ IsLeast {i | StandsAt key cs i} front.length := by
  constructor
  · intro h
    obtain ⟨front, hcs, hfirst⟩ := exists_leftmost h
    exact ⟨front, hcs, ⟨front, back, hcs, rfl⟩, hfirst⟩
  · rintro ⟨front, hcs, -, hfirst⟩
    obtain ⟨back', hback'⟩ := exists_after?_iff.2 ⟨front, back, hcs.symm⟩
    obtain ⟨front', hcs', hfirst'⟩ := exists_leftmost hback'
    -- two leftmost places have the same characters in front
    have hlength : front.length = front'.length :=
      Nat.le_antisymm (hfirst ⟨front', back', hcs', rfl⟩) (hfirst' _ ⟨front, back, hcs, rfl⟩)
    have happend : front ++ (key ++ back) = front' ++ (key ++ back') := by
      rw [← List.append_assoc, ← List.append_assoc, ← hcs, ← hcs']
    rw [hback', List.append_cancel_left (List.append_inj happend hlength).2]

/-- All places of a key, from left to right. -/
def places (key cs : List Char) : List Nat :=
  (List.range (cs.length + 1)).filter fun i => key.isPrefixOf (cs.drop i)

/-- Places may overlap. -/
example : places "aba".toList "ababa".toList = [0, 2] := by decide +kernel

theorem mem_places : i ∈ places key cs ↔ StandsAt key cs i := by
  rw [places, List.mem_filter, List.mem_range, List.isPrefixOf_iff_prefix, standsAt_iff,
    Nat.lt_succ_iff]

theorem nodup_places (key cs : List Char) : (places key cs).Nodup :=
  List.nodup_range.filter _

theorem places_cons (key : List Char) (c : Char) (cs : List Char) :
    places key (c :: cs) =
      if key <+: c :: cs then 0 :: (places key cs).map Nat.succ
      else (places key cs).map Nat.succ := by
  rw [places, List.length_cons, List.range_succ_eq_map, List.filter_cons, List.filter_map,
    List.drop_zero]
  simp only [List.isPrefixOf_iff_prefix]
  rfl

theorem places_of_not_infix (h : ¬ key <:+: cs) : places key cs = [] := by
  rw [List.eq_nil_iff_forall_not_mem]
  intro i hi
  exact h (exists_standsAt_iff.1 ⟨i, mem_places.1 hi⟩)

/-! ## Keys without a border -/

/-- The key ends with nothing that it begins with, except for itself. -/
def Unbordered (key : List Char) : Prop := ∀ b, b ≠ [] → b <+: key → b <:+ key → b = key

/-- A key without a border cannot begin within itself. -/
theorem apart_tail_iff : Apart key key.tail ↔ Unbordered key := by
  constructor
  · intro hapart b hb hprefix hsuffix
    cases key with
    | nil => exact List.prefix_nil.1 hprefix
    | cons k tail =>
      refine (List.suffix_cons_iff.1 hsuffix).resolve_right ?_
      intro htail
      exact (hapart b ((List.mem_tails b tail).2 htail) hb).2 hprefix
  · intro h s hs hne
    have hsuffix : s <:+ key.tail := (List.mem_tails s _).1 hs
    have hlength := hsuffix.length_le
    rw [List.length_tail] at hlength
    have hpos := List.length_pos_iff.2 hne
    refine ⟨?_, ?_⟩
    · intro hprefix
      have := hprefix.length_le
      omega
    · intro hprefix
      have := congrArg List.length (h s hne hprefix (hsuffix.trans (List.tail_suffix key)))
      omega

theorem Apart.length_places {front : List Char} (h : Apart key front) (back : List Char) :
    (places key (front ++ back)).length = (places key back).length := by
  induction front with
  | nil => rfl
  | cons c front ih =>
    rw [List.cons_append, places_cons, if_neg (h.not_prefix_append back), List.length_map,
      ih h.tail]

/-- The count from the left reaches every place, also behind a match. -/
theorem countFrom_eq_length_places (hapart : Apart key key.tail) (hkey : key ≠ []) {covered : Nat}
    (hcovered : covered ≤ cs.length) :
    countFrom key covered cs = (places key (cs.drop covered)).length := by
  induction cs generalizing covered with
  | nil =>
    obtain rfl : covered = 0 := Nat.le_zero.1 hcovered
    rw [countFrom_eq_zero (by simpa using hkey), List.drop_zero,
      places_of_not_infix (by simpa using hkey), List.length_nil]
  | cons c cs ih =>
    cases covered with
    | succ covered =>
      rw [countFrom, ih (Nat.le_of_succ_le_succ hcovered), List.drop_succ_cons]
    | zero =>
      rw [countFrom, List.drop_zero, places_cons]
      simp only [List.isPrefixOf_iff_prefix]
      split_ifs with hprefix
      · -- no other place begins within the match
        obtain ⟨rest, hrest⟩ := hprefix
        have hcs : cs = key.tail ++ rest := by
          rw [← List.tail_append_of_ne_nil hkey, hrest, List.tail_cons]
        have hlength : key.length - 1 ≤ cs.length := by
          rw [hcs, List.length_append, List.length_tail]
          omega
        rw [ih hlength, List.length_cons, List.length_map, hcs, hapart.length_places,
          ← List.length_tail, List.drop_left]
      · rw [ih (Nat.zero_le _), List.drop_zero, List.length_map]

/-- A border gives a text with two places that count as one. -/
theorem exists_countFrom_lt {b : List Char} (hb : b ≠ []) (hbegin : b <+: key) (hend : b <:+ key)
    (hne : b ≠ key) : ∃ cs, countFrom key 0 cs < (places key cs).length := by
  obtain ⟨back, hback⟩ := hbegin
  obtain ⟨front, hfront⟩ := hend
  have hkey : key ≠ [] := by
    rintro rfl
    exact hb (List.append_eq_nil_iff.1 hback).1
  have hfront' : front ≠ [] := by
    rintro rfl
    exact hne hfront
  -- the border is the end of one match and the beginning of another
  refine ⟨key ++ back, ?_⟩
  have hshort : ¬ key <:+: back := by
    intro h
    have hlength := h.length_le
    have hpos := List.length_pos_iff.2 hb
    rw [← hback, List.length_append] at hlength
    omega
  have hfirst : 0 ∈ places key (key ++ back) :=
    mem_places.2 (standsAt_zero.2 (List.prefix_append key back))
  have hsecond : front.length ∈ places key (key ++ back) := by
    refine mem_places.2 ⟨front, [], ?_, rfl⟩
    rw [List.append_nil, ← hfront, List.append_assoc, hback, hfront]
  have htwo : [0, front.length].length ≤ (places key (key ++ back)).length := by
    refine List.Nodup.length_le_of_subset ?_ ?_
    · simpa using Ne.symm (mt List.length_eq_zero_iff.1 hfront')
    · simp [hfirst, hsecond]
  rw [countFrom_key_append hkey, countFrom_eq_zero hshort]
  exact htwo

/-- **The count from the left is the number of all places exactly if the key has no border.** -/
theorem countFrom_eq_length_places_iff (hkey : key ≠ []) :
    (∀ cs, countFrom key 0 cs = (places key cs).length) ↔ Unbordered key := by
  constructor
  · intro h b hb hprefix hsuffix
    by_contra hne
    obtain ⟨cs, hcs⟩ := exists_countFrom_lt hb hprefix hsuffix hne
    exact hcs.ne (h cs)
  · intro h cs
    exact countFrom_eq_length_places (apart_tail_iff.2 h) hkey (Nat.zero_le _)

/-! ## The first place and the last -/

/-- The key stands nowhere in the text, or its first place there is also the last one. -/
def FirstIsLast (key cs : List Char) : Prop :=
  (∀ i, ¬ StandsAt key cs i) ∨
    ∃ i, IsLeast {j | StandsAt key cs j} i ∧ IsGreatest {j | StandsAt key cs j} i

/-- **A key has at most one place exactly if the first is also the last.** -/
theorem length_places_le_one_iff : (places key cs).length ≤ 1 ↔ FirstIsLast key cs := by
  constructor
  · intro h
    match hplaces : places key cs with
    | [] =>
      refine .inl fun i hi => ?_
      have hmem := mem_places.2 hi
      rw [hplaces] at hmem
      cases hmem
    | [i] =>
      have hiff (j : Nat) : StandsAt key cs j ↔ j = i := by
        rw [← mem_places, hplaces, List.mem_singleton]
      have hi : StandsAt key cs i := (hiff i).2 rfl
      refine .inr ⟨i, ⟨hi, ?_⟩, ⟨hi, ?_⟩⟩
      · intro j hj
        exact ((hiff j).1 hj).ge
      · intro j hj
        exact ((hiff j).1 hj).le
    | _ :: _ :: _ =>
      rw [hplaces] at h
      simp at h
  · rintro (hnone | ⟨i, hleast, hgreatest⟩)
    · rw [List.eq_nil_iff_forall_not_mem.2 fun i hi => hnone i (mem_places.1 hi)]
      exact Nat.zero_le 1
    · have hsubset : places key cs ⊆ [i] := by
        intro j hj
        have hj : StandsAt key cs j := mem_places.1 hj
        exact List.mem_singleton.2 (Nat.le_antisymm (hgreatest.2 hj) (hleast.2 hj))
      exact (nodup_places key cs).length_le_of_subset hsubset

/-- The first place is the last one exactly if any two places have the same characters in front. -/
theorem firstIsLast_iff : FirstIsLast key cs ↔ ∀ front back front' back',
    cs = front ++ key ++ back → cs = front' ++ key ++ back' → front = front' := by
  constructor
  · intro h front back front' back' hcs hcs'
    have hplace : StandsAt key cs front.length := ⟨front, back, hcs, rfl⟩
    have hplace' : StandsAt key cs front'.length := ⟨front', back', hcs', rfl⟩
    obtain hnone | ⟨i, hleast, hgreatest⟩ := h
    · exact absurd hplace (hnone _)
    · have hlength : front.length = front'.length :=
        (Nat.le_antisymm (hgreatest.2 hplace) (hleast.2 hplace)).trans
          (Nat.le_antisymm (hleast.2 hplace') (hgreatest.2 hplace'))
      rw [hcs, List.append_assoc, List.append_assoc] at hcs'
      exact (List.append_inj hcs' hlength).1
  · intro h
    by_cases hsome : ∃ i, StandsAt key cs i
    · obtain ⟨_, front, back, hcs, rfl⟩ := hsome
      have hall : ∀ j, StandsAt key cs j → j = front.length := by
        rintro _ ⟨front', back', hcs', rfl⟩
        rw [h front back front' back' hcs hcs']
      exact .inr ⟨front.length, ⟨⟨front, back, hcs, rfl⟩, fun j hj => (hall j hj).ge⟩,
        ⟨front, back, hcs, rfl⟩, fun j hj => (hall j hj).le⟩
    · exact .inl (not_exists.1 hsome)

/-- **A key is counted at most once if its first place is the last one**, provided that it cannot
begin within itself. -/
theorem countFrom_le_one_iff (hapart : Apart key key.tail) (hkey : key ≠ []) :
    countFrom key 0 cs ≤ 1 ↔ FirstIsLast key cs := by
  rw [countFrom_eq_length_places hapart hkey (Nat.zero_le _), List.drop_zero,
    length_places_le_one_iff]

variable {label text before behind : String}

theorem appearsAtMostOnce_iff (hapart : Apart label.toList label.toList.tail)
    (hlabel : label.toList ≠ []) :
    appearsAtMostOnce label text = true ↔ FirstIsLast label.toList text.toList := by
  rw [appearsAtMostOnce, decide_eq_true_iff, occurrences, countFrom_le_one_iff hapart hlabel]

/-- What follows the place of a key that is counted at most once. -/
theorem after?_of_occurrences_le_one (hapart : Apart label.toList label.toList.tail)
    (hlabel : label.toList ≠ []) (h : occurrences label (before ++ label ++ behind) ≤ 1) :
    after? label.toList (before ++ label ++ behind).toList = some behind.toList := by
  rw [occurrences, countFrom_le_one_iff hapart hlabel, firstIsLast_iff] at h
  have htext : (before ++ label ++ behind).toList =
      before.toList ++ label.toList ++ behind.toList := by simp
  refine after?_eq_some_iff.2 ⟨before.toList, htext, ⟨_, _, htext, rfl⟩, ?_⟩
  rintro _ ⟨front, back, hfront, rfl⟩
  rw [h _ _ _ _ htext hfront]

end SortingOffice.Text
