import SortingOffice.Text.Blank
import SortingOffice.Time.Moment

/-!
# Reading moments

A moment is read item by item from the front of a text, and the first item that does not fit says
why the text is no moment.

* `Unreadable`: the reasons.
* `Reader`: a step that takes an item off the front.
* `Moment.readMinuteText`: reads the form that ends with the minute.
* `Moment.readText`: reads the full form.
-/

namespace SortingOffice

/-- Why a text is not a moment. -/
inductive Unreadable
  /-- The text ends where an item is due. -/
  | tooShort
  /-- Another character stands where a digit or a fixed character is due. -/
  | badCharacter
  /-- A number is outside its range, or there is no such day. -/
  | outOfRange
  /-- Characters are left after the last item. -/
  | trailing
deriving DecidableEq, Repr

/-- The wording of a reason. -/
def Unreadable.message : Unreadable → String
  | tooShort => "premature end of input"
  | badCharacter => "input contains invalid characters"
  | outOfRange => "input is out of range"
  | trailing => "trailing input"

/-- A step that takes an item off the front of a text. -/
abbrev Reader := StateT (List Char) (Except Unreadable)

namespace Reader

/-! ## Items -/

/-- Takes all blanks off the front. -/
def blanks : Reader Unit := modify Text.trimStart

/-- Takes one fixed character. -/
def literal (c : Char) : Reader Unit := fun
  | [] => throw .tooShort
  | d :: rest => if d = c then pure ((), rest) else throw .badCharacter

/-- Takes as many digits as there are, at least one and at most `most`. -/
def digits (most : Nat) : Reader (List Char) := fun cs =>
  match (cs.take most).takeWhile Char.isDigit with
  | [] => throw (if cs.isEmpty then .tooShort else .badCharacter)
  | ds => pure (ds, cs.drop ds.length)

/-- The number that a run of digits stands for. -/
def valueOf (ds : List Char) : Nat := Nat.ofDigitChars 10 ds 0

/-- Takes a number of at most two digits, blanks before it allowed, and checks its range. -/
def number (least greatest : Nat) : Reader Nat := do
  blanks
  let n := valueOf (← digits 2)
  if least ≤ n ∧ n ≤ greatest then pure n else throw .outOfRange

/-- Takes a year, blanks before it allowed: four digits at most, or a sign and any number of
digits. It has to fit 32 bits. -/
def year : Reader Int := do
  blanks
  let y : Int ← match ← get with
    | '-' :: rest => do
      set rest
      pure (-(valueOf (← digits rest.length)))
    | '+' :: rest => do
      set rest
      pure (valueOf (← digits rest.length))
    | _ => do pure (valueOf (← digits 4))
  if -2147483648 ≤ y ∧ y ≤ 2147483647 then pure y else throw .outOfRange

/-- Takes the part of a second, which is a point and digits, if a point is next. Digits after the
ninth do not count. -/
def fraction : Reader Nat := do
  match ← get with
  | '.' :: rest => do
    set rest
    pure (valueOf (((← digits rest.length).take 9).rightpad 9 '0'))
  | _ => pure 0

/-- Checks that nothing is left. -/
def finish : Reader Unit := fun
  | [] => pure ((), [])
  | _ :: _ => throw .trailing

/-- The moment that shows the numbers read, if there is such a day. -/
def moment (year : Int) (month day hour minute second nano : Nat) : Reader Moment :=
  match Date.of? year month day, Clock.ofShown? hour minute second nano with
  | some date, some clock => pure ⟨date, clock⟩
  | _, _ => throw .outOfRange

/-! ## Forms -/

/-- Year, month and day with hyphens, then hour and minute with a colon. Blanks may stand before
each number. -/
def minuteForm : Reader Moment := do
  let y ← year
  literal '-'
  let mo ← number 1 12
  literal '-'
  let d ← number 1 31
  blanks
  let h ← number 0 23
  literal ':'
  let mi ← number 0 59
  finish
  moment y mo d h mi 0 0

/-- Date and time of day with a `T` between them, down to the second or a part of it. Blanks may
stand before each number, before each fixed character other than the `T` and the point, and at
the end. -/
def fullForm : Reader Moment := do
  let y ← year
  blanks; literal '-'
  let mo ← number 1 12
  blanks; literal '-'
  let d ← number 1 31
  blanks; literal 'T'
  let h ← number 0 23
  blanks; literal ':'
  let mi ← number 0 59
  blanks; literal ':'
  let s ← number 0 60
  let n ← fraction
  blanks; finish
  moment y mo d h mi s n

end Reader

namespace Moment

/-- The moment that a text such as `2022-12-08 14:14` shows. -/
def readMinuteText (text : String) : Except Unreadable Moment :=
  Prod.fst <$> Reader.minuteForm.run text.toList

/-- The moment that a text such as `2022-12-08T14:14:05.250` shows. -/
def readText (text : String) : Except Unreadable Moment :=
  Prod.fst <$> Reader.fullForm.run text.toList

end Moment

end SortingOffice
