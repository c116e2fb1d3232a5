/-!
# Times of day

A time of day counts hours, minutes, seconds and nanoseconds. A leap second may follow any second.
It has no number of its own: in it the nanoseconds of the second before go on, beyond a whole second.

* `Clock`: the times of day, with `Clock.of?` as its checked constructor.
* `Clock.shownSecond`, `Clock.shownNano`: the second that a time shows, and the part of it.
* `Clock.ofShown?`: the time of day that is read from the numbers shown.
* Times are ordered as they follow each other within a day.
-/

namespace SortingOffice

/-- A time of day. From 1000000000 nanoseconds on it is in the leap second behind its second. -/
structure Clock where
  hour : Nat
  minute : Nat
  second : Nat
  nano : Nat
  hour_lt : hour < 24
  minute_lt : minute < 60
  second_lt : second < 60
  nano_lt : nano < 2000000000
deriving DecidableEq

namespace Clock

/-- The time of day with the given numbers, if they are in range. -/
def of? (hour minute second nano : Nat) : Option Clock :=
  if h : hour < 24 ∧ minute < 60 ∧ second < 60 ∧ nano < 2000000000 then
    some ⟨hour, minute, second, nano, h.1, h.2.1, h.2.2.1, h.2.2.2⟩
  else none

@[simp] theorem of?_self (c : Clock) : of? c.hour c.minute c.second c.nano = some c :=
  dif_pos ⟨c.hour_lt, c.minute_lt, c.second_lt, c.nano_lt⟩

@[ext] theorem ext {a b : Clock} (hh : a.hour = b.hour) (hm : a.minute = b.minute)
    (hs : a.second = b.second) (hn : a.nano = b.nano) : a = b := by
  cases a; cases b; simp_all

/-! ## Leap seconds -/

/-- Whether the time is in a leap second. -/
def IsLeap (c : Clock) : Prop := 1000000000 ≤ c.nano

instance (c : Clock) : Decidable c.IsLeap := inferInstanceAs <| Decidable (1000000000 ≤ c.nano)

/-- The second that the time shows. A leap second counts one more, so it is the second 60 at the
end of a minute. -/
def shownSecond (c : Clock) : Nat := if c.IsLeap then c.second + 1 else c.second

/-- The nanoseconds of the second that the time shows. -/
def shownNano (c : Clock) : Nat := if c.IsLeap then c.nano - 1000000000 else c.nano

/-- The time of day that is read from the numbers shown. Only the second 60 is taken for a leap
second. -/
def ofShown? (hour minute second nano : Nat) : Option Clock :=
  if 1000000000 ≤ nano then none
  else if second = 60 then of? hour minute 59 (nano + 1000000000)
  else of? hour minute second nano

theorem shownSecond_le (c : Clock) : c.shownSecond ≤ 60 := by
  have hsecond := c.second_lt
  rw [shownSecond]
  split <;> omega

theorem shownNano_lt (c : Clock) : c.shownNano < 1000000000 := by
  have hnano := c.nano_lt
  rw [shownNano]
  split
  · omega
  · next h => exact Nat.not_le.1 h

/-! ## Order -/

/-- The order of times: by hour, minute, second and nanosecond. -/
def order : Clock → Clock → Ordering :=
  compareLex (compareOn hour) (compareLex (compareOn minute)
    (compareLex (compareOn second) (compareOn nano)))

instance : Ord Clock := ⟨order⟩

instance : Std.TransOrd Clock :=
  inferInstanceAs <| Std.TransCmp <| compareLex (compareOn hour) (compareLex (compareOn minute)
    (compareLex (compareOn second) (compareOn nano)))

instance : Std.LawfulEqOrd Clock where
  eq_of_compare {a b} h := by
    have h' : order a b = .eq := h
    simp only [order, compareLex_eq_eq, compareOn] at h'
    obtain ⟨hh, hm, hs, hn⟩ := h'
    exact Clock.ext (Std.LawfulEqOrd.eq_of_compare hh) (Std.LawfulEqOrd.eq_of_compare hm)
      (Std.LawfulEqOrd.eq_of_compare hs) (Std.LawfulEqOrd.eq_of_compare hn)

end Clock

end SortingOffice
