/-!
# Searching a text

A key is a run of characters, looked for at every place of a text, so it may stand in the middle
of a line or of a word.

* `after?`: what follows the leftmost place of a key.
* `contains`: whether a key stands somewhere.
* `occurrences`: how often a key stands in a text, matches never overlapping.
-/

namespace SortingOffice.Text

/-- What follows the leftmost place where `key` stands in the text, if it stands in it at all. -/
def after? (key : List Char) : List Char → Option (List Char)
  | [] => if key.isEmpty then some [] else none
  | c :: rest =>
    if key.isPrefixOf (c :: rest) then some ((c :: rest).drop key.length) else after? key rest

/-- How often `key` stands in the text, counted from the left without overlaps. The first `covered`
characters belong to a match that is counted already. -/
def countFrom (key : List Char) : (covered : Nat) → List Char → Nat
  | _, [] => if key.isEmpty then 1 else 0
  | covered + 1, _ :: rest => countFrom key covered rest
  | 0, c :: rest =>
    if key.isPrefixOf (c :: rest) then countFrom key (key.length - 1) rest + 1
    else countFrom key 0 rest

/-- Whether `key` stands somewhere in `text`. -/
def contains (key text : String) : Bool := (after? key.toList text.toList).isSome

/-- How often `key` stands in `text`, counted from the left without overlaps. The empty key stands
before every character and at the end. -/
def occurrences (key text : String) : Nat := countFrom key.toList 0 text.toList

/-- Whether `key` stands in `text` once or not at all. -/
def appearsAtMostOnce (key text : String) : Bool := occurrences key text ≤ 1

/-- Matches do not overlap. -/
example : occurrences "aba" "ababa" = 1 := by decide +kernel

@[simp] theorem after?_empty (cs : List Char) : after? [] cs = some cs := by
  cases cs <;> simp [after?]

end SortingOffice.Text
