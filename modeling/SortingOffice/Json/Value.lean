/-!
# JSON documents

The values of RFC 8259, with two liberties that reading needs. A number that is not written as an
integer keeps its spelling, since no record here asks for its value. A string keeps the numbers of
its characters and escapes, since an escape may name one half of a surrogate pair alone.

* `Scalar`: the values without parts.
* `Json`: the documents.
* `Json.text`, `Json.record`: documents from strings and from named values.
* `pairUp`: the characters that the numbers of a string stand for.
-/

namespace SortingOffice

/-- A JSON value without parts. -/
inductive Scalar
  | null
  | bool (b : Bool)
  /-- A number written as an integer. -/
  | int (n : Int)
  /-- Any other number, as it is spelled. -/
  | decimal (spelling : List Char)
  /-- A string, as the numbers of its characters and escapes. -/
  | text (codes : List Nat)
deriving DecidableEq, Repr

/-- A JSON document. The members of an object keep their order and may repeat a key. -/
inductive Json
  | scalar (s : Scalar)
  | array (items : List Json)
  | object (members : List (List Nat × Json))

namespace Json

/-! ## Strings -/

/-- Whether a number is the first half of a surrogate pair. -/
def isHighHalf (n : Nat) : Bool := 0xD800 ≤ n && n < 0xDC00

/-- Whether a number is the second half of a surrogate pair. -/
def isLowHalf (n : Nat) : Bool := 0xDC00 ≤ n && n < 0xE000

/-- The characters that the numbers stand for. Two halves in their order make one character, and
a half alone makes none. -/
def pairUp : List Nat → Option (List Char)
  | [] => some []
  | [n] => if isHighHalf n || isLowHalf n then none else some [Char.ofNat n]
  | n :: m :: rest =>
    if isHighHalf n then
      if isLowHalf m then
        (pairUp rest).map (Char.ofNat (0x10000 + (n - 0xD800) * 0x400 + (m - 0xDC00)) :: ·)
      else none
    else if isLowHalf n then none
    else (pairUp (m :: rest)).map (Char.ofNat n :: ·)

/-- The numbers of the characters of a string. -/
def codesOf (s : String) : List Nat := s.toList.map Char.toNat

/-- The string with the given numbers, if they stand for one. -/
def stringOf? (codes : List Nat) : Option String := (pairUp codes).map String.ofList

/-! ## Documents -/

/-- The document `null`. -/
def null : Json := scalar .null

/-- A string as a document. -/
def text (s : String) : Json := scalar (.text (codesOf s))

/-- An integer as a document. -/
def int (n : Int) : Json := scalar (.int n)

/-- A truth value as a document. -/
def bool (b : Bool) : Json := scalar (.bool b)

/-- The object with the given keys and values. -/
def record (fields : List (String × Json)) : Json :=
  object (fields.map fun f => (codesOf f.1, f.2))

end Json

end SortingOffice
