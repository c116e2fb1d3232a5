import SortingOffice.Json.Value

/-!
# Writing JSON

* `Layout`: all on one line without spaces, or a line for each item and member.
* `Scalar.chars`: the text of a value without parts.
* `Json.write`: the text of a document.
-/

namespace SortingOffice

/-- How a document is laid out. -/
inductive Layout
  /-- Everything on one line, without spaces. -/
  | compact
  /-- A line for each item and member, two spaces deeper than what is around it, and a space behind
  each colon. -/
  | indented
deriving DecidableEq, Repr

namespace Layout

/-- What stands before an item or a closing bracket that is `depth` levels deep. -/
def lineStart : Layout → (depth : Nat) → List Char
  | compact, _ => []
  | indented, depth => '\n' :: List.replicate (2 * depth) ' '

/-- What stands between a key and its value. -/
def keyEnd : Layout → List Char
  | compact => [':']
  | indented => [':', ' ']

end Layout

namespace Scalar

/-- A number below 65536 as an escape with four hexadecimal digits in lower case. -/
def hexEscape (n : Nat) : List Char := '\\' :: 'u' :: (Nat.toDigits 16 n).leftpad 4 '0'

/-- A character inside a string. Quotation mark, backslash and control characters are escaped, as
is half of a surrogate pair. -/
def charsOfCode (n : Nat) : List Char :=
  if n = 0x22 then ['\\', '"']
  else if n = 0x5C then ['\\', '\\']
  else if n = 0x08 then ['\\', 'b']
  else if n = 0x0C then ['\\', 'f']
  else if n = 0x0A then ['\\', 'n']
  else if n = 0x0D then ['\\', 'r']
  else if n = 0x09 then ['\\', 't']
  else if n < 0x20 ∨ (0xD800 ≤ n ∧ n < 0xE000) then hexEscape n
  else [Char.ofNat n]

/-- Short escapes come first, and other control characters have lower-case digits. -/
example : [0x22, 0x0A, 0x1F, 0x7F].map (String.ofList ∘ charsOfCode) =
    ["\\\"", "\\n", "\\u001f", "\x7f"] := by
  decide +kernel

/-- A string in quotation marks. -/
def quoted (codes : List Nat) : List Char := '"' :: codes.flatMap charsOfCode ++ ['"']

/-- An integer, with a minus sign if it is negative. -/
def integer (n : Int) : List Char :=
  if n < 0 then '-' :: Nat.toDigits 10 n.natAbs else Nat.toDigits 10 n.natAbs

/-- The text of a value without parts. -/
def chars : Scalar → List Char
  | null => "null".toList
  | bool true => "true".toList
  | bool false => "false".toList
  | int n => integer n
  | decimal spelling => spelling
  | text codes => quoted codes

end Scalar

namespace Json

mutual

/-- The text of a document that stands `depth` levels deep. -/
def chars (layout : Layout) (depth : Nat) : Json → List Char
  | scalar s => s.chars
  | array [] => ['[', ']']
  | array (v :: vs) =>
    '[' :: layout.lineStart (depth + 1) ++ chars layout (depth + 1) v ++
      moreItems layout (depth + 1) vs ++ layout.lineStart depth ++ [']']
  | object [] => ['\x7b', '\x7d']
  | object (m :: ms) =>
    '\x7b' :: layout.lineStart (depth + 1) ++ memberChars layout (depth + 1) m ++
      moreMembers layout (depth + 1) ms ++ layout.lineStart depth ++ ['\x7d']

/-- Further items of an array, a comma before each. -/
def moreItems (layout : Layout) (depth : Nat) : List Json → List Char
  | [] => []
  | v :: vs =>
    ',' :: layout.lineStart depth ++ chars layout depth v ++ moreItems layout depth vs

/-- Further members of an object, a comma before each. -/
def moreMembers (layout : Layout) (depth : Nat) : List (List Nat × Json) → List Char
  | [] => []
  | m :: ms =>
    ',' :: layout.lineStart depth ++ memberChars layout depth m ++ moreMembers layout depth ms

/-- A key and its value. -/
def memberChars (layout : Layout) (depth : Nat) : List Nat × Json → List Char
  | (key, v) => Scalar.quoted key ++ layout.keyEnd ++ chars layout depth v

end

/-- The text of a document. -/
def write (layout : Layout) (j : Json) : String := String.ofList (chars layout 0 j)

end Json

end SortingOffice
