import SortingOffice.Json.Value

/-!
# Records in JSON

A record is given as an object, each field under its name, or as an array, the fields in order.

* `Json.string?`, `Json.int32?`, `Json.bool?`, `Json.strings?`: the values that fields have.
* `Record`: the fields that a document gives, with `Json.fields?` to find them.
-/

namespace SortingOffice

namespace Json

/-! ## Values of fields -/

/-- The string that a document is. -/
def string? : Json → Option String
  | scalar (.text codes) => stringOf? codes
  | _ => none

/-- The integer of 32 bits that a document is. -/
def int32? : Json → Option Int32
  | scalar (.int n) =>
    if -2147483648 ≤ n ∧ n ≤ 2147483647 then some (Int32.ofInt n) else none
  | _ => none

/-- The truth value that a document is. -/
def bool? : Json → Option Bool
  | scalar (.bool b) => some b
  | _ => none

/-- The strings that an array holds. -/
def strings? : Json → Option (List String)
  | array items => items.mapM string?
  | _ => none

end Json

/-! ## Records -/

/-- The fields that a document gives. -/
structure Record where
  /-- Whether the fields stand under their names. -/
  named : Bool
  given : List (String × Json)

/-- What a document gives for a field. -/
def Record.get? (r : Record) (name : String) : Option Json := r.given.lookup name

namespace Json

/-- The member of an object with its key as a string, if the key is one. -/
def member? (m : List Nat × Json) : Option (String × Json) :=
  (stringOf? m.1).map fun key => (key, m.2)

/-- What a document gives for the fields with these names. In an object, other keys do not matter,
but none of these may come twice. An array may be shorter than the list of names. -/
def fields? (names : List String) : Json → Option Record
  | object members => do
    let given := (← members.mapM member?).filter fun f => names.contains f.1
    if (given.map Prod.fst).Nodup then some ⟨true, given⟩ else none
  | array items => if items.length ≤ names.length then some ⟨false, names.zip items⟩ else none
  | scalar _ => none

end Json

end SortingOffice
