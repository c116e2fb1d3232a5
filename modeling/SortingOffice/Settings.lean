import SortingOffice.Fault
import SortingOffice.Json.Reading
import SortingOffice.Json.Record
import SortingOffice.Json.Writing

/-!
# Settings

* `Settings`: the priorities that rules may have, and whether sent mail is delivered.
* `Settings.check`: whether settings make sense.
* `Settings.read`, `Settings.toText`: settings as JSON.
-/

namespace SortingOffice

/-- The settings of an office. -/
structure Settings where
  /-- The least priority a rule may have. -/
  leastPriority : Int32 := 1
  /-- The greatest priority a rule may have. -/
  greatestPriority : Int32 := 10
  /-- Whether sent mail is delivered to the recipients that have an account. -/
  deliverLocally : Bool := true
deriving DecidableEq, Repr

namespace Settings

/-- The settings of an office that is given none. -/
def standard : Settings := {}

/-- Refuses a range of priorities that is empty or starts below 1. -/
def check (s : Settings) : Except Fault Unit :=
  if s.leastPriority < 1 then .error (.settings .leastTooSmall)
  else if s.greatestPriority < s.leastPriority then
    .error (.settings (.emptyRange s.leastPriority s.greatestPriority))
  else .ok ()

/-- The settings as a JSON document. -/
def toJson (s : Settings) : Json :=
  .record [("min_priority", .int s.leastPriority.toInt),
    ("max_priority", .int s.greatestPriority.toInt),
    ("deliver_locally", .bool s.deliverLocally)]

/-- The settings that a JSON document gives. What it does not give is as in
the standard settings. -/
def ofJson? (j : Json) : Option Settings := do
  let r ← j.fields? ["min_priority", "max_priority", "deliver_locally"]
  pure {
    leastPriority := ← (r.get? "min_priority").elim (some standard.leastPriority) Json.int32?
    greatestPriority := ← (r.get? "max_priority").elim (some standard.greatestPriority) Json.int32?
    deliverLocally := ← (r.get? "deliver_locally").elim (some standard.deliverLocally) Json.bool? }

/-- The settings as indented JSON. -/
def toText (s : Settings) : String := s.toJson.write .indented

/-- The settings that a JSON text gives, if they make sense. -/
def read (text : String) : Except Fault Settings :=
  match (Json.read text).bind ofJson? with
  | none => .error .unreadable
  | some s => s.check.map fun _ => s

end Settings

end SortingOffice
