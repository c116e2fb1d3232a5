/-!
# Calendar dates

Dates of the proleptic Gregorian calendar, which has a year 0 and negative years, within a fixed
span of years.

* `isLeapYear`, `daysIn`: the shape of a year.
* `Date`: a day that exists, with `Date.of?` as its checked constructor.
* Dates are ordered as the days follow each other.
-/

namespace SortingOffice

/-- The first year a date may have. -/
def firstYear : Int := -262143

/-- The last year a date may have. -/
def lastYear : Int := 262142

/-- Whether a year has a 29th of February. -/
def isLeapYear (year : Int) : Bool := year % 4 == 0 && (year % 100 != 0 || year % 400 == 0)

/-- The number of days in a month, the months counted from 1. -/
def daysIn (year : Int) (month : Nat) : Nat :=
  if month = 2 then if isLeapYear year then 29 else 28
  else if month = 4 ∨ month = 6 ∨ month = 9 ∨ month = 11 then 30 else 31

/-- A day that exists in the calendar. -/
structure Date where
  year : Int
  month : Nat
  day : Nat
  year_mem : firstYear ≤ year ∧ year ≤ lastYear
  month_mem : 1 ≤ month ∧ month ≤ 12
  day_mem : 1 ≤ day ∧ day ≤ daysIn year month
deriving DecidableEq

namespace Date

/-- The date with the given numbers, if there is such a day. -/
def of? (year : Int) (month day : Nat) : Option Date :=
  if h : (firstYear ≤ year ∧ year ≤ lastYear) ∧ (1 ≤ month ∧ month ≤ 12) ∧
      (1 ≤ day ∧ day ≤ daysIn year month) then
    some ⟨year, month, day, h.1, h.2.1, h.2.2⟩
  else none

@[simp] theorem of?_self (d : Date) : of? d.year d.month d.day = some d :=
  dif_pos ⟨d.year_mem, d.month_mem, d.day_mem⟩

@[ext] theorem ext {a b : Date} (hy : a.year = b.year) (hm : a.month = b.month)
    (hd : a.day = b.day) : a = b := by
  cases a; cases b; simp_all

/-- The order of dates: by year, month and day. -/
def order : Date → Date → Ordering :=
  compareLex (compareOn year) (compareLex (compareOn month) (compareOn day))

instance : Ord Date := ⟨order⟩

instance : Std.TransOrd Date :=
  inferInstanceAs <| Std.TransCmp <|
    compareLex (compareOn year) (compareLex (compareOn month) (compareOn day))

instance : Std.LawfulEqOrd Date where
  eq_of_compare {a b} h := by
    have h' : order a b = .eq := h
    simp only [order, compareLex_eq_eq, compareOn] at h'
    exact Date.ext (Std.LawfulEqOrd.eq_of_compare h'.1) (Std.LawfulEqOrd.eq_of_compare h'.2.1)
      (Std.LawfulEqOrd.eq_of_compare h'.2.2)

end Date

end SortingOffice
