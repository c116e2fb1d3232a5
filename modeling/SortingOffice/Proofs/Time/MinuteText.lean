import Mathlib.Algebra.Group.Nat.Defs
import SortingOffice.Time.Reading
import SortingOffice.Proofs.Text.Value

/-!
# Moments down to the minute

* `padded_digits`, `valueOf_padded`: numbers with zeros in front.
* `Reader.number_padded`, `Reader.year_yearChars`: each item is read back as it is written.
* **`Moment.readMinuteText_toMinuteText`**: a whole minute is read back, in any year.
* `Moment.isWhole_of_readMinuteText`: whatever is read is a whole minute.
* `Moment.isValue_toMinuteText`: a written moment can stand behind a label.
-/

namespace SortingOffice

open Text

/-! ## Digits -/

theorem isBlank_of_isDigit {c : Char} (h : c.isDigit = true) : isBlank c = false := by
  simp only [Char.isDigit, Bool.and_eq_true, decide_eq_true_eq] at h
  have hlow : 48 ≤ c.toNat := h.1
  have hhigh : c.toNat ≤ 57 := h.2
  simp [isBlank, blankRanges]
  omega

namespace Moment

theorem isDigit_of_mem_padded {width n : Nat} {c : Char} (h : c ∈ padded width n) :
    c.isDigit = true := by
  rw [padded, List.leftpad, List.mem_append] at h
  rcases h with h | h
  · rw [(List.mem_replicate.1 h).2]
    decide
  · exact Nat.isDigit_of_mem_toDigits (by decide) (by decide) h

theorem length_padded {width n : Nat} (hwidth : 0 < width) (h : n < 10 ^ width) :
    (padded width n).length = width := by
  rw [padded, List.length_leftpad]
  exact max_eq_left ((Nat.length_toDigits_le_iff (by decide) hwidth).2 h)

theorem padded_ne_nil (width n : Nat) : padded width n ≠ [] := by
  rw [padded, List.leftpad]
  simp

theorem valueOf_padded (width n : Nat) : Reader.valueOf (padded width n) = n := by
  rw [Reader.valueOf, padded, List.leftpad, Nat.ofDigitChars_append,
    Nat.ofDigitChars_replicate_zero, Nat.mul_zero, Nat.ofDigitChars_ten_toDigits]

end Moment

namespace Reader

open Moment

variable {α β : Type} {cs ds rest : List Char} {most : Nat}

/-! ## Steps -/

theorem bind_eq {x : Reader α} {a : α} (h : x cs = .ok (a, rest)) (f : α → Reader β) :
    (x >>= f) cs = f a rest := by
  show (x cs >>= fun p => f p.1 p.2) = _
  rw [h]
  rfl

theorem bind_eq_error {x : Reader α} {reason : Unreadable} (h : x cs = .error reason)
    (f : α → Reader β) : (x >>= f) cs = .error reason := by
  show (x cs >>= fun p => f p.1 p.2) = _
  rw [h]
  rfl

theorem bind_eq_ok {x : Reader α} {f : α → Reader β} {b : β} :
    (x >>= f) cs = .ok (b, rest) ↔ ∃ a mid, x cs = .ok (a, mid) ∧ f a mid = .ok (b, rest) := by
  show (x cs >>= fun p => f p.1 p.2) = _ ↔ _
  cases x cs with
  | error reason => simp [bind, Except.bind]
  | ok p =>
    cases p
    simp [bind, Except.bind]

theorem blanks_append {front : List Char} (hfront : ∀ c ∈ front, isBlank c = true)
    (h : ∀ c ∈ cs.head?, isBlank c = false) : blanks (front ++ cs) = .ok ((), cs) := by
  have hstart : trimStart cs = cs := by
    cases cs with
    | nil => rfl
    | cons c cs => exact List.dropWhile_cons_of_neg (by simp [h c rfl])
  show Except.ok ((), trimStart (front ++ cs)) = _
  rw [trimStart_append_of_blank hfront, hstart]

theorem blanks_of_head (h : ∀ c ∈ cs.head?, isBlank c = false) : blanks cs = .ok ((), cs) :=
  blanks_append (List.forall_mem_nil _) h

theorem literal_cons (c : Char) (cs : List Char) : literal c (c :: cs) = .ok ((), cs) := if_pos rfl

theorem digits_append (hds : ∀ c ∈ ds, c.isDigit = true) (hne : ds ≠ []) (hmost : ds.length ≤ most)
    (hrest : ds.length = most ∨ ∀ c ∈ rest.head?, c.isDigit = false) :
    digits most (ds ++ rest) = .ok (ds, rest) := by
  have htake : ((ds ++ rest).take most).takeWhile Char.isDigit = ds := by
    rw [List.take_append, List.take_of_length_le hmost, List.takeWhile_append_of_pos hds]
    rcases hrest with hlen | hhead
    · simp [hlen]
    · cases rest with
      | nil => simp
      | cons c rest =>
        cases most - ds.length with
        | zero => simp
        | succ n =>
          rw [List.take_succ_cons, List.takeWhile_cons_of_neg (by simp [hhead c rfl]),
            List.append_nil]
  rw [digits, htake]
  cases ds with
  | nil => exact absurd rfl hne
  | cons d ds => simp [pure, Except.pure]

/-! ## Items -/

theorem head_padded_append (width n : Nat) (rest : List Char) :
    ∀ c ∈ (padded width n ++ rest).head?, c.isDigit = true := by
  intro c hc
  rw [List.head?_append_of_ne_nil _ (padded_ne_nil width n)] at hc
  exact isDigit_of_mem_padded (List.mem_of_mem_head? hc)

theorem number_padded {least greatest n : Nat} (hn : least ≤ n ∧ n ≤ greatest) (hlt : n < 100)
    (rest : List Char) : number least greatest (padded 2 n ++ rest) = .ok (n, rest) := by
  have hblank : blanks (padded 2 n ++ rest) = .ok ((), padded 2 n ++ rest) :=
    blanks_of_head fun c hc => isBlank_of_isDigit (head_padded_append 2 n rest c hc)
  have hlen : (padded 2 n).length = 2 := length_padded (by decide) hlt
  have hdigits : digits 2 (padded 2 n ++ rest) = .ok (padded 2 n, rest) :=
    digits_append (fun c hc => isDigit_of_mem_padded hc) (padded_ne_nil 2 n) hlen.le (.inl hlen)
  rw [number, bind_eq hblank, bind_eq hdigits, valueOf_padded, if_pos hn]
  rfl

theorem get_eq (cs : List Char) : (get : Reader (List Char)) cs = .ok (cs, cs) := rfl

theorem set_eq (cs rest : List Char) : (set rest : Reader PUnit) cs = .ok (⟨⟩, rest) := rfl

theorem pure_eq (a : α) (cs : List Char) : (pure a : Reader α) cs = .ok (a, cs) := rfl

theorem range_eq {y : Int} (hy : -2147483648 ≤ y ∧ y ≤ 2147483647) :
    (if -2147483648 ≤ y ∧ y ≤ 2147483647 then pure y else throw .outOfRange : Reader Int) rest =
      .ok (y, rest) := by
  rw [if_pos hy]
  rfl

theorem year_of_digits {y : Int} (hhead : ∀ c ∈ cs.head?, c.isDigit = true)
    (hdigits : digits 4 cs = .ok (ds, rest)) (hvalue : valueOf ds = y)
    (hy : -2147483648 ≤ y ∧ y ≤ 2147483647) : year cs = .ok (y, rest) := by
  have hblank := blanks_of_head fun c hc => isBlank_of_isDigit (hhead c hc)
  rw [year, bind_eq hblank, bind_eq (get_eq cs)]
  split
  · cases hhead '-' rfl
  · cases hhead '+' rfl
  · rw [bind_eq hdigits, hvalue, bind_eq (pure_eq y rest)]
    exact range_eq hy

theorem year_of_minus {y : Int} (hdigits : digits cs.length cs = .ok (ds, rest))
    (hvalue : -(valueOf ds : Int) = y) (hy : -2147483648 ≤ y ∧ y ≤ 2147483647) :
    year ('-' :: cs) = .ok (y, rest) := by
  have hblank : blanks ('-' :: cs) = .ok ((), '-' :: cs) := blanks_of_head fun c hc => by
    rw [← Option.some.inj hc]
    decide
  rw [year, bind_eq hblank, bind_eq (get_eq _)]
  show (set cs >>= fun _ => digits cs.length >>= fun ds => pure (-(valueOf ds : Int)) >>= fun y =>
    if -2147483648 ≤ y ∧ y ≤ 2147483647 then pure y else throw .outOfRange : Reader Int) _ = _
  rw [bind_eq (set_eq _ cs), bind_eq hdigits, hvalue, bind_eq (pure_eq y rest)]
  exact range_eq hy

theorem year_of_plus {y : Int} (hdigits : digits cs.length cs = .ok (ds, rest))
    (hvalue : valueOf ds = y) (hy : -2147483648 ≤ y ∧ y ≤ 2147483647) :
    year ('+' :: cs) = .ok (y, rest) := by
  have hblank : blanks ('+' :: cs) = .ok ((), '+' :: cs) := blanks_of_head fun c hc => by
    rw [← Option.some.inj hc]
    decide
  rw [year, bind_eq hblank, bind_eq (get_eq _)]
  show (set cs >>= fun _ => digits cs.length >>= fun ds => pure (valueOf ds : Int) >>= fun y =>
    if -2147483648 ≤ y ∧ y ≤ 2147483647 then pure y else throw .outOfRange : Reader Int) _ = _
  rw [bind_eq (set_eq _ cs), bind_eq hdigits, hvalue, bind_eq (pure_eq y rest)]
  exact range_eq hy

/-- **A year is read back, with its sign and all its digits.** -/
theorem year_yearChars {y : Int} (hy : firstYear ≤ y ∧ y ≤ lastYear) (rest : List Char) :
    year (yearChars y ++ '-' :: rest) = .ok (y, '-' :: rest) := by
  have hrange : -2147483648 ≤ y ∧ y ≤ 2147483647 := by
    simp only [firstYear, lastYear] at hy
    omega
  have hdigits {most : Nat} (hmost : (padded 4 y.natAbs).length ≤ most) :
      digits most (padded 4 y.natAbs ++ '-' :: rest) = .ok (padded 4 y.natAbs, '-' :: rest) :=
    digits_append (fun c hc => isDigit_of_mem_padded hc) (padded_ne_nil 4 _) hmost
      (.inr (by simp))
  have hrest : (padded 4 y.natAbs).length ≤ (padded 4 y.natAbs ++ '-' :: rest).length := by simp
  rw [yearChars]
  split_ifs with hshort hneg
  · have hlen : (padded 4 y.natAbs).length = 4 := length_padded (by decide) (by omega)
    refine year_of_digits (head_padded_append 4 y.natAbs _) (hdigits hlen.le) ?_ hrange
    rw [valueOf_padded]
    omega
  · refine year_of_minus (hdigits hrest) ?_ hrange
    rw [valueOf_padded]
    omega
  · refine year_of_plus (hdigits hrest) ?_ hrange
    rw [valueOf_padded]
    omega

theorem moment_of_shown {m : Moment} {c : Clock} {second nano : Nat}
    (h : Clock.ofShown? m.clock.hour m.clock.minute second nano = some c) :
    moment m.date.year m.date.month m.date.day m.clock.hour m.clock.minute second nano =
      pure ⟨m.date, c⟩ := by
  rw [moment, Date.of?_self, h]

theorem moment_eq_ok {m : Moment} {y : Int} {mo d hour minute second nano : Nat}
    (h : moment y mo d hour minute second nano cs = .ok (m, rest)) :
    Clock.ofShown? hour minute second nano = some m.clock := by
  rw [moment] at h
  cases hdate : Date.of? y mo d with
  | none =>
    rw [hdate] at h
    cases h
  | some date =>
    cases hclock : Clock.ofShown? hour minute second nano with
    | none =>
      rw [hdate, hclock] at h
      cases h
    | some clock =>
      rw [hdate, hclock] at h
      cases h
      rfl

theorem year_eq_error {c : Char} (hblank : isBlank c = false) (hdigit : c.isDigit = false)
    (hminus : c ≠ '-') (hplus : c ≠ '+') : year (c :: cs) = .error .badCharacter := by
  have hblanks : blanks (c :: cs) = .ok ((), c :: cs) := blanks_of_head fun d hd => by
    rwa [← Option.some.inj hd]
  have hdigits : digits 4 (c :: cs) = .error .badCharacter := by
    rw [digits, List.take_succ_cons, List.takeWhile_cons_of_neg (by simp [hdigit])]
    rfl
  rw [year, bind_eq hblanks, bind_eq (get_eq _)]
  generalize htext : c :: cs = text at hdigits
  split
  · exact absurd (List.cons.inj htext).1 hminus
  · exact absurd (List.cons.inj htext).1 hplus
  · exact bind_eq_error hdigits _

end Reader

theorem Date.day_le (d : Date) : d.day ≤ 31 := by
  refine d.day_mem.2.trans ?_
  rw [daysIn]
  split_ifs <;> omega

theorem Clock.of?_eq_some {hour minute second nano : Nat} {c : Clock}
    (h : of? hour minute second nano = some c) : c.second = second ∧ c.nano = nano := by
  rw [of?] at h
  split_ifs at h
  rw [← Option.some.inj h]
  exact ⟨rfl, rfl⟩

theorem Clock.ofShown?_zero (hour minute : Nat) : ofShown? hour minute 0 0 = of? hour minute 0 0 :=
  rfl

namespace Moment

variable {m : Moment}

/-- There are no seconds beyond the minute. -/
def IsWhole (m : Moment) : Prop := m.clock.second = 0 ∧ m.clock.nano = 0

theorem minuteForm_toMinuteText (hwhole : m.IsWhole) :
    Reader.minuteForm (dateChars m.date ++ ' ' :: minuteChars m.clock) = .ok (m, []) := by
  have hmonth := m.date.month_mem
  have hday : 1 ≤ m.date.day ∧ m.date.day ≤ 31 := ⟨m.date.day_mem.1, m.date.day_le⟩
  have hhour := m.clock.hour_lt
  have hminute := m.clock.minute_lt
  have hspace : Reader.blanks (' ' :: (padded 2 m.clock.hour ++ ':' :: padded 2 m.clock.minute)) =
      .ok ((), padded 2 m.clock.hour ++ ':' :: padded 2 m.clock.minute) :=
    Reader.blanks_append isBlank_of_mem_space fun c hc =>
      isBlank_of_isDigit (Reader.head_padded_append 2 _ _ c hc)
  have hend := Reader.number_padded ⟨Nat.zero_le _, Nat.le_of_lt_succ hminute⟩ (by omega) []
  rw [List.append_nil] at hend
  have hclock : Clock.ofShown? m.clock.hour m.clock.minute 0 0 = some m.clock := by
    have hself := m.clock.of?_self
    rwa [hwhole.1, hwhole.2, ← Clock.ofShown?_zero] at hself
  rw [dateChars, minuteChars, List.append_assoc, List.cons_append, List.append_assoc,
    List.cons_append, Reader.minuteForm, Reader.bind_eq (Reader.year_yearChars m.date.year_mem _),
    Reader.bind_eq (Reader.literal_cons '-' _),
    Reader.bind_eq (Reader.number_padded hmonth (by omega) _),
    Reader.bind_eq (Reader.literal_cons '-' _),
    Reader.bind_eq (Reader.number_padded hday (by omega) _),
    Reader.bind_eq hspace,
    Reader.bind_eq (Reader.number_padded ⟨Nat.zero_le _, Nat.le_of_lt_succ hhour⟩ (by omega) _),
    Reader.bind_eq (Reader.literal_cons ':' _), Reader.bind_eq hend,
    Reader.bind_eq (show Reader.finish [] = .ok ((), []) from rfl), Reader.moment_of_shown hclock]
  rfl

/-- **A whole minute is read back, in any year.** -/
theorem readMinuteText_toMinuteText (hwhole : m.IsWhole) :
    readMinuteText m.toMinuteText = .ok m := by
  rw [readMinuteText, toMinuteText, String.toList_ofList]
  show Prod.fst <$> Reader.minuteForm (dateChars m.date ++ ' ' :: minuteChars m.clock) = _
  rw [minuteForm_toMinuteText hwhole]
  rfl

theorem exists_minuteForm_of_readMinuteText {text : String} (h : readMinuteText text = .ok m) :
    ∃ rest, Reader.minuteForm text.toList = .ok (m, rest) := by
  change Prod.fst <$> Reader.minuteForm text.toList = _ at h
  cases hform : Reader.minuteForm text.toList with
  | error reason =>
    rw [hform] at h
    cases h
  | ok p =>
    rw [hform] at h
    cases h
    exact ⟨p.2, rfl⟩

/-- **Whatever is read is a whole minute.** -/
theorem isWhole_of_readMinuteText {text : String} (h : readMinuteText text = .ok m) :
    m.IsWhole := by
  obtain ⟨rest, hform⟩ := exists_minuteForm_of_readMinuteText h
  simp only [Reader.minuteForm, Reader.bind_eq_ok] at hform
  obtain ⟨y, _, -, _, _, -, mo, _, -, _, _, -, d, _, -, _, _, -, hour, _, -, _, _, -, minute, _, -,
    _, _, -, hmoment⟩ := hform
  have hclock := Reader.moment_eq_ok hmoment
  rw [Clock.ofShown?_zero] at hclock
  exact Clock.of?_eq_some hclock

/-- A text that starts with a letter is not a moment. -/
theorem readMinuteText_ne_ok {text : String} {c : Char} {cs : List Char}
    (htext : text.toList = c :: cs) (hblank : isBlank c = false) (hdigit : c.isDigit = false)
    (hminus : c ≠ '-') (hplus : c ≠ '+') : readMinuteText text ≠ .ok m := by
  intro h
  obtain ⟨rest, hform⟩ := exists_minuteForm_of_readMinuteText h
  rw [htext, Reader.minuteForm,
    Reader.bind_eq_error (Reader.year_eq_error hblank hdigit hminus hplus)] at hform
  cases hform

/-! ## A written moment as a value -/

theorem mem_dateChars {d : Date} {c : Char} (h : c ∈ dateChars d) :
    c.isDigit = true ∨ c = '-' ∨ c = '+' := by
  have hyear : c ∈ yearChars d.year → c.isDigit = true ∨ c = '-' ∨ c = '+' := by
    intro hc
    rw [yearChars] at hc
    split_ifs at hc
    · exact .inl (isDigit_of_mem_padded hc)
    · exact (List.mem_cons.1 hc).elim (.inr ∘ .inl) (.inl ∘ isDigit_of_mem_padded)
    · exact (List.mem_cons.1 hc).elim (.inr ∘ .inr) (.inl ∘ isDigit_of_mem_padded)
  simp only [dateChars, List.mem_append, List.mem_cons] at h
  rcases h with (hc | rfl | hc) | rfl | hc
  · exact hyear hc
  · exact .inr (.inl rfl)
  · exact .inl (isDigit_of_mem_padded hc)
  · exact .inr (.inl rfl)
  · exact .inl (isDigit_of_mem_padded hc)

theorem mem_minuteChars {t : Clock} {c : Char} (h : c ∈ minuteChars t) :
    c.isDigit = true ∨ c = ':' := by
  simp only [minuteChars, List.mem_append, List.mem_cons] at h
  rcases h with hc | rfl | hc
  · exact .inl (isDigit_of_mem_padded hc)
  · exact .inr rfl
  · exact .inl (isDigit_of_mem_padded hc)

/-- **A written moment can stand behind a label.** -/
theorem isValue_toMinuteText (m : Moment) : IsValue m.toMinuteText ∧ m.toMinuteText ≠ "" := by
  have hdate : ∀ c ∈ dateChars m.date, isBlank c = false := by
    intro c hc
    rcases mem_dateChars hc with hdigit | rfl | rfl
    · exact isBlank_of_isDigit hdigit
    · decide
    · decide
  have hclock : ∀ c ∈ minuteChars m.clock, isBlank c = false := by
    intro c hc
    rcases mem_minuteChars hc with hdigit | rfl
    · exact isBlank_of_isDigit hdigit
    · decide
  have hnl : isBlank '\n' = true := by decide
  have htext : m.toMinuteText.toList = dateChars m.date ++ [' '] ++ minuteChars m.clock := by
    rw [toMinuteText, String.toList_ofList, List.append_assoc, List.singleton_append]
  refine ⟨⟨?_, ?_⟩, ?_⟩
  · rw [htext]
    exact (trimmed_of_forall hdate).append (trimmed_of_forall hclock) (by simp [dateChars])
      (by simp [minuteChars]) [' ']
  · rw [htext]
    simp only [List.mem_append, List.mem_singleton, not_or]
    exact ⟨⟨fun h => by simp [hdate _ h] at hnl, by decide⟩, fun h => by simp [hclock _ h] at hnl⟩
  · rw [ne_eq, ← String.toList_eq_nil_iff, htext]
    simp

end Moment

end SortingOffice
