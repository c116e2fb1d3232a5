import SortingOffice.Proofs.Time.MinuteText

/-!
# Moments down to the nanosecond

The full text of a moment shows all of it: years of any sign and length, and as many digits of the
fraction as are needed. A leap second is shown as one second more. At the end of a minute that is
the second 60, but within a minute it is a second that may be meant as well.

* `Clock.shown`, **`Clock.shown_eq_self_iff`**: the time of day that is read from what a time shows,
  which is the time itself unless it is in a leap second within a minute.
* `Reader.fraction_fractionChars`: a part of a second is read back, whatever its width.
* **`Moment.readText_toText`**: what is read from the full text of a moment.
-/

namespace SortingOffice

open Text

/-! ## Leap seconds within a minute -/

namespace Clock

variable {c : Clock}

/-- Whether the time is in a leap second that does not end a minute. -/
def IsInnerLeap (c : Clock) : Prop := c.IsLeap ∧ c.second < 59

instance (c : Clock) : Decidable c.IsInnerLeap :=
  inferInstanceAs <| Decidable (c.IsLeap ∧ c.second < 59)

/-- The time of day that is read from what the time shows. A leap second within a minute shows the
second that follows it. -/
def shown (c : Clock) : Clock :=
  if h : c.IsInnerLeap then
    { c with
      second := c.second + 1
      nano := c.nano - 1000000000
      second_lt := Nat.succ_lt_succ h.2
      nano_lt := (Nat.sub_le _ _).trans_lt c.nano_lt }
  else c

theorem shown_of_not_isInnerLeap (h : ¬ c.IsInnerLeap) : c.shown = c := dif_neg h

/-- **A time is read back unless it is in a leap second within a minute.** -/
theorem shown_eq_self_iff : c.shown = c ↔ ¬ c.IsInnerLeap := by
  refine ⟨?_, shown_of_not_isInnerLeap⟩
  intro heq h
  have hsecond := congrArg second heq
  rw [shown, dif_pos h] at hsecond
  exact absurd hsecond (Nat.succ_ne_self c.second)

theorem IsInnerLeap.not_isLeap_shown (h : c.IsInnerLeap) : ¬ c.shown.IsLeap := by
  have hnano := c.nano_lt
  rw [shown, dif_pos h, IsLeap]
  show ¬ 1000000000 ≤ c.nano - 1000000000
  omega

theorem shownSecond_shown (c : Clock) : c.shown.shownSecond = c.shownSecond := by
  by_cases h : c.IsInnerLeap
  · rw [shownSecond, if_neg h.not_isLeap_shown, shownSecond, if_pos h.1, shown, dif_pos h]
  · rw [shown_of_not_isInnerLeap h]

theorem shownNano_shown (c : Clock) : c.shown.shownNano = c.shownNano := by
  by_cases h : c.IsInnerLeap
  · rw [shownNano, if_neg h.not_isLeap_shown, shownNano, if_pos h.1, shown, dif_pos h]
  · rw [shown_of_not_isInnerLeap h]

theorem hour_shown (c : Clock) : c.shown.hour = c.hour := by
  rw [shown]
  split_ifs <;> rfl

theorem minute_shown (c : Clock) : c.shown.minute = c.minute := by
  rw [shown]
  split_ifs <;> rfl

/-- **What is read from the numbers that a time shows.** -/
theorem ofShown?_eq_shown (c : Clock) :
    ofShown? c.hour c.minute c.shownSecond c.shownNano = some c.shown := by
  rw [ofShown?, if_neg (Nat.not_le.2 c.shownNano_lt)]
  by_cases hleap : c.IsLeap
  · rw [shownSecond, if_pos hleap, shownNano, if_pos hleap]
    by_cases hlast : c.second = 59
    · have hnano : c.nano - 1000000000 + 1000000000 = c.nano := Nat.sub_add_cancel hleap
      have hself := c.of?_self
      rw [hlast] at hself
      rw [hlast, if_pos rfl, hnano, hself, shown_of_not_isInnerLeap fun h => h.2.ne hlast]
    · have hle : c.second ≤ 59 := Nat.le_of_lt_succ c.second_lt
      have hinner : c.IsInnerLeap := ⟨hleap, hle.lt_of_ne hlast⟩
      have hself := c.shown.of?_self
      rw [shown, dif_pos hinner] at hself ⊢
      rw [if_neg (fun h => hlast (Nat.succ.inj h))]
      exact hself
  · have hsecond : c.second ≠ 60 := c.second_lt.ne
    rw [shownSecond, if_neg hleap, shownNano, if_neg hleap, if_neg hsecond, of?_self,
      shown_of_not_isInnerLeap fun h => hleap h.1]

end Clock

namespace Reader

open Moment

variable {cs : List Char}

/-! ## Items -/

theorem blanks_cons {c : Char} (hc : isBlank c = false) (cs : List Char) :
    blanks (c :: cs) = .ok ((), c :: cs) :=
  blanks_of_head fun d hd => by rwa [← Option.some.inj hd]

theorem blanks_nil : blanks [] = .ok ((), []) := rfl

theorem fraction_of_point {ds : List Char} (hds : ∀ c ∈ ds, c.isDigit = true) (hne : ds ≠ []) :
    fraction ('.' :: ds) = .ok (valueOf ((ds.take 9).rightpad 9 '0'), []) := by
  have hdigits : digits ds.length ds = .ok (ds, []) := by
    have hall : digits ds.length (ds ++ []) = .ok (ds, []) :=
      digits_append hds hne (le_refl ds.length) (.inl rfl)
    rwa [List.append_nil] at hall
  rw [fraction, bind_eq (get_eq _)]
  show (set ds >>= fun _ => digits ds.length >>= fun ds =>
    pure (valueOf ((ds.take 9).rightpad 9 '0')) : Reader Nat) _ = _
  rw [bind_eq (set_eq _ ds), bind_eq hdigits]
  rfl

/-- Zeros behind a fraction multiply the number that its digits show. -/
theorem valueOf_rightpad_padded {width n : Nat} (hwidth : 0 < width) (hle : width ≤ 9)
    (hn : n < 10 ^ width) :
    valueOf (((padded width n).take 9).rightpad 9 '0') = 10 ^ (9 - width) * n := by
  have hlen : (padded width n).length = width := length_padded hwidth hn
  rw [List.take_of_length_le (by omega), List.rightpad, hlen, valueOf, Nat.ofDigitChars_append,
    Nat.ofDigitChars_replicate_zero, ← valueOf, valueOf_padded]

theorem fraction_padded {width n : Nat} (hwidth : 0 < width) (hle : width ≤ 9)
    (hn : n < 10 ^ width) :
    fraction ('.' :: padded width n) = .ok (10 ^ (9 - width) * n, []) := by
  rw [fraction_of_point (fun c hc => isDigit_of_mem_padded hc) (padded_ne_nil width n),
    valueOf_rightpad_padded hwidth hle hn]

/-- **A part of a second is read back, whatever its width.** -/
theorem fraction_fractionChars {nano : Nat} (h : nano < 1000000000) :
    fraction (fractionChars nano) = .ok (nano, []) := by
  rw [fractionChars]
  split_ifs with hzero hmilli hmicro
  · rw [hzero]
    rfl
  · rw [fraction_padded (by decide) (by decide) (by omega)]
    congr 2
    omega
  · rw [fraction_padded (by decide) (by decide) (by omega)]
    congr 2
    omega
  · rw [fraction_padded (by decide) (by decide) (by omega)]
    congr 2
    omega

end Reader

namespace Moment

variable {m : Moment}

/-- The moment that is read from what a moment shows. -/
def shown (m : Moment) : Moment := { m with clock := m.clock.shown }

theorem shown_eq_self_iff : m.shown = m ↔ ¬ m.clock.IsInnerLeap := by
  rw [← Clock.shown_eq_self_iff]
  constructor
  · exact fun heq => congrArg clock heq
  · intro heq
    rw [shown, heq]

/-- A moment and what is read from it show the same. -/
theorem toText_shown (m : Moment) : m.shown.toText = m.toText := by
  simp only [toText, minuteChars, shown, Clock.hour_shown, Clock.minute_shown,
    Clock.shownSecond_shown, Clock.shownNano_shown]

theorem fullForm_toText (m : Moment) :
    Reader.fullForm (dateChars m.date ++ 'T' :: minuteChars m.clock ++
      ':' :: padded 2 m.clock.shownSecond ++ fractionChars m.clock.shownNano) =
        .ok (m.shown, []) := by
  have hday : 1 ≤ m.date.day ∧ m.date.day ≤ 31 := ⟨m.date.day_mem.1, m.date.day_le⟩
  have hmonth := m.date.month_mem
  have hhour := m.clock.hour_lt
  have hminute := m.clock.minute_lt
  have hsecond := m.clock.shownSecond_le
  have hhyphen := Reader.blanks_cons (c := '-') (by decide)
  have hcolon := Reader.blanks_cons (c := ':') (by decide)
  have hletter := Reader.blanks_cons (c := 'T') (by decide)
  simp only [dateChars, minuteChars, List.append_assoc, List.cons_append]
  rw [Reader.fullForm, Reader.bind_eq (Reader.year_yearChars m.date.year_mem _),
    Reader.bind_eq (hhyphen _), Reader.bind_eq (Reader.literal_cons '-' _),
    Reader.bind_eq (Reader.number_padded hmonth (by omega) _),
    Reader.bind_eq (hhyphen _), Reader.bind_eq (Reader.literal_cons '-' _),
    Reader.bind_eq (Reader.number_padded hday (by omega) _),
    Reader.bind_eq (hletter _), Reader.bind_eq (Reader.literal_cons 'T' _),
    Reader.bind_eq (Reader.number_padded ⟨Nat.zero_le _, Nat.le_of_lt_succ hhour⟩ (by omega) _),
    Reader.bind_eq (hcolon _), Reader.bind_eq (Reader.literal_cons ':' _),
    Reader.bind_eq (Reader.number_padded ⟨Nat.zero_le _, Nat.le_of_lt_succ hminute⟩ (by omega) _),
    Reader.bind_eq (hcolon _), Reader.bind_eq (Reader.literal_cons ':' _),
    Reader.bind_eq (Reader.number_padded ⟨Nat.zero_le _, hsecond⟩ (by omega) _),
    Reader.bind_eq (Reader.fraction_fractionChars m.clock.shownNano_lt),
    Reader.bind_eq Reader.blanks_nil,
    Reader.bind_eq (show Reader.finish [] = .ok ((), []) from rfl),
    Reader.moment_of_shown m.clock.ofShown?_eq_shown]
  rfl

/-- **What is read from the full text of a moment.** It is the moment, unless that is in a leap
second within a minute. -/
theorem readText_toText (m : Moment) : readText m.toText = .ok m.shown := by
  rw [readText, toText, String.toList_ofList]
  show Prod.fst <$> Reader.fullForm (dateChars m.date ++ 'T' :: minuteChars m.clock ++
    ':' :: padded 2 m.clock.shownSecond ++ fractionChars m.clock.shownNano) = _
  rw [fullForm_toText]
  rfl

end Moment

end SortingOffice
