import SortingOffice.Time.Date
import SortingOffice.Time.Clock

/-!
# Moments

A moment is a date with a time of day, in no particular time zone.

* `Moment`: the moments, in chronological order.
* `Moment.toMinuteText`: the text a header shows, down to the minute.
* `Moment.toText`: the full text, down to the nanosecond.
-/

namespace SortingOffice

/-- A date with a time of day. -/
structure Moment where
  date : Date
  clock : Clock
deriving DecidableEq

namespace Moment

/-! ## Order -/

@[ext] theorem ext {a b : Moment} (hd : a.date = b.date) (hc : a.clock = b.clock) : a = b := by
  cases a; cases b; simp_all

/-- The order of moments: by date, then by time of day. -/
def order : Moment → Moment → Ordering := compareLex (compareOn date) (compareOn clock)

instance : Ord Moment := ⟨order⟩

instance : Std.TransOrd Moment :=
  inferInstanceAs <| Std.TransCmp <| compareLex (compareOn date) (compareOn clock)

instance : Std.LawfulEqOrd Moment where
  eq_of_compare {a b} h := by
    have h' : order a b = .eq := h
    simp only [order, compareLex_eq_eq, compareOn] at h'
    exact Moment.ext (Std.LawfulEqOrd.eq_of_compare h'.1) (Std.LawfulEqOrd.eq_of_compare h'.2)

/-! ## Written form -/

/-- The decimal digits of `n`, with zeros in front up to `width` places. -/
def padded (width n : Nat) : List Char := (Nat.toDigits 10 n).leftpad width '0'

/-- Years from 0 to 9999 have four digits. The others have their sign and at least four digits. -/
def yearChars (year : Int) : List Char :=
  if 0 ≤ year ∧ year ≤ 9999 then padded 4 year.natAbs
  else (if year < 0 then '-' else '+') :: padded 4 year.natAbs

/-- Years outside the four digits show their sign. -/
example :
    [-1, 0, 987, 10000].map (String.ofList ∘ yearChars) = ["-0001", "0000", "0987", "+10000"] := by
  decide +kernel

/-- A date is written as year, month and day with hyphens between them. -/
def dateChars (d : Date) : List Char :=
  yearChars d.year ++ '-' :: padded 2 d.month ++ '-' :: padded 2 d.day

/-- The hour and the minute with a colon between them. -/
def minuteChars (c : Clock) : List Char := padded 2 c.hour ++ ':' :: padded 2 c.minute

/-- A part of a second is written with the fewest of 3, 6 and 9 digits that lose nothing, and not
at all if it is zero. -/
def fractionChars (nano : Nat) : List Char :=
  if nano = 0 then []
  else if nano % 1000000 = 0 then '.' :: padded 3 (nano / 1000000)
  else if nano % 1000 = 0 then '.' :: padded 6 (nano / 1000)
  else '.' :: padded 9 nano

/-- Zeros at the end of a fraction are left out in groups of three. -/
example : [0, 500000000, 1000, 7].map (String.ofList ∘ fractionChars) =
    ["", ".500", ".000001", ".000000007"] := by
  decide +kernel

/-- The moment down to the minute, such as `2022-12-08 14:14`. -/
def toMinuteText (m : Moment) : String :=
  String.ofList (dateChars m.date ++ ' ' :: minuteChars m.clock)

/-- The whole moment, such as `2022-12-08T14:14:05.250`. -/
def toText (m : Moment) : String :=
  String.ofList (dateChars m.date ++ 'T' :: minuteChars m.clock ++
    ':' :: padded 2 m.clock.shownSecond ++ fractionChars m.clock.shownNano)

end Moment

end SortingOffice
