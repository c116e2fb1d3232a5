import SortingOffice.Json.Token

/-!
# Reading JSON

A document is read token by token. What is open and not closed yet lies on a stack, so nesting has
no limit.

* `Reading`: a document that is read in part, with `Reading.step` for the next token.
* `Json.read`: the document of a text.
-/

namespace SortingOffice

namespace Json

/-- An array or object that is open around the place reached. -/
inductive Frame
  /-- An array, with the items before this place, the last one first. -/
  | array (before : List Json)
  /-- An object, with the members before this place, the last one first, and the key of the value
  that is due. -/
  | object (before : List (List Nat × Json)) (key : List Nat)

/-- What has to come next. -/
inductive Due
  /-- A value. -/
  | value
  /-- The first item of an array, or its end. -/
  | firstItem
  /-- The first key of an object, or its end. -/
  | firstKey
  /-- A further key of an object with the members before it, the last one first. -/
  | key (before : List (List Nat × Json))
  /-- The colon behind a key. -/
  | colon (before : List (List Nat × Json)) (key : List Nat)
  /-- A comma or the end of what is open, behind a value that is complete. -/
  | next (v : Json)

/-- A document that is read in part. -/
structure Reading where
  due : Due
  frames : List Frame

namespace Reading

/-- Nothing is read yet. -/
def start : Reading := ⟨.value, []⟩

/-- The state behind the token that a value starts with. -/
def beginValue (frames : List Frame) : Token → Option Reading
  | .scalar s => some ⟨.next (.scalar s), frames⟩
  | .openArray => some ⟨.firstItem, frames⟩
  | .openObject => some ⟨.firstKey, frames⟩
  | _ => none

/-- The state behind a comma or a closing bracket that follows the value `v`. -/
def continueAfter (v : Json) : List Frame → Token → Option Reading
  | .array before :: frames, .comma => some ⟨.value, .array (v :: before) :: frames⟩
  | .array before :: frames, .closeArray => some ⟨.next (.array (v :: before).reverse), frames⟩
  | .object before key :: frames, .comma => some ⟨.key ((key, v) :: before), frames⟩
  | .object before key :: frames, .closeObject =>
    some ⟨.next (.object ((key, v) :: before).reverse), frames⟩
  | _, _ => none

/-- The state behind the next token, if the token may stand here. -/
def step : Reading → Token → Option Reading
  | ⟨.value, frames⟩, t => beginValue frames t
  | ⟨.firstItem, frames⟩, .closeArray => some ⟨.next (.array []), frames⟩
  | ⟨.firstItem, frames⟩, t => beginValue (.array [] :: frames) t
  | ⟨.firstKey, frames⟩, .closeObject => some ⟨.next (.object []), frames⟩
  | ⟨.firstKey, frames⟩, .scalar (.text key) => some ⟨.colon [] key, frames⟩
  | ⟨.key before, frames⟩, .scalar (.text key) => some ⟨.colon before key, frames⟩
  | ⟨.colon before key, frames⟩, .colon => some ⟨.value, .object before key :: frames⟩
  | ⟨.next v, frames⟩, t => continueAfter v frames t
  | _, _ => none

/-- The document, if it is complete. -/
def finish : Reading → Option Json
  | ⟨.next v, []⟩ => some v
  | _ => none

end Reading

/-- The document that a row of tokens makes. -/
def ofTokens (ts : List Token) : Option Json :=
  (ts.foldlM Reading.step Reading.start).bind Reading.finish

/-- The document of a text, if the text is one document with white space around it. -/
def read (text : String) : Option Json := (Token.all? text.toList).bind ofTokens

end Json

end SortingOffice
