import SortingOffice.Settings
import SortingOffice.Proofs.Json.Records

/-!
# Settings read back

Settings are written as they are, also those that make no sense, and checked when they are read. So
reading gives the settings back or what is wrong with them, and never settings that make no sense.

* `Settings.check_eq_ok`, `Settings.check_eq_error`: the settings that make sense, and what is wrong
  with the others.
* `Settings.ofJson?_toJson`: the stored form is that of the settings.
* **`Settings.read_toText`**: reading the text of settings is checking them.
* **`Settings.read_toText_iff_check`**: settings that are written and read again.
-/

namespace SortingOffice

theorem Json.int32?_int (n : Int32) : (Json.int n.toInt).int32? = some n := by
  have hleast := n.le_toInt
  have hgreatest := n.toInt_lt
  rw [Json.int, Json.int32?, if_pos (by omega), Int32.ofInt_toInt]

namespace Settings

variable {s : Settings} {fault : Fault} {text : String}

/-! ## The check -/

/-- **The settings that make sense**: priorities start at 1 or above, and there is one. -/
theorem check_eq_ok {u : Unit} : s.check = .ok u ↔
    1 ≤ s.leastPriority ∧ s.leastPriority ≤ s.greatestPriority := by
  rw [← Int32.not_lt, ← Int32.not_lt, check]
  split_ifs with hleast hrange
  · simp [hleast]
  · simp [hrange]
  · simp [hleast, hrange]

/-- A least priority below 1 is reported first, and then an empty range. -/
theorem check_eq_error : s.check = .error fault ↔
    s.leastPriority < 1 ∧ fault = .settings .leastTooSmall ∨
      1 ≤ s.leastPriority ∧ s.greatestPriority < s.leastPriority ∧
        fault = .settings (.emptyRange s.leastPriority s.greatestPriority) := by
  rw [← Int32.not_lt, check]
  split_ifs with hleast hrange
  · simp [hleast, eq_comm]
  · simp [hleast, hrange, eq_comm]
  · simp [hleast, hrange]

/-! ## The text -/

theorem plain_toJson (s : Settings) : s.toJson.Plain := by
  apply Json.plain_record
  intro f hf
  simp only [List.mem_cons, List.not_mem_nil, or_false] at hf
  rcases hf with rfl | rfl | rfl <;> exact .scalar trivial

theorem ofJson?_toJson (s : Settings) : ofJson? s.toJson = some s := by
  have hfields : s.toJson.fields? ["min_priority", "max_priority", "deliver_locally"] =
      some ⟨true, [("min_priority", .int s.leastPriority.toInt),
        ("max_priority", .int s.greatestPriority.toInt),
        ("deliver_locally", .bool s.deliverLocally)]⟩ :=
    Json.fields?_record rfl (by decide)
  have hbool : (Json.bool s.deliverLocally).bool? = some s.deliverLocally := rfl
  rw [ofJson?, hfields]
  simp [Record.get?, List.lookup_cons, Json.int32?_int, hbool]

/-- **Reading the text of settings is checking them.** -/
theorem read_toText (s : Settings) : read s.toText = s.check.map fun _ => s := by
  rw [read, toText, Json.read_write s.plain_toJson, Option.bind_some, ofJson?_toJson]

theorem check_of_read (h : read text = .ok s) : s.check = .ok () := by
  rw [read] at h
  cases hgiven : (Json.read text).bind ofJson? with
  | none =>
    rw [hgiven] at h
    cases h
  | some given =>
    rw [hgiven] at h
    cases hcheck : given.check with
    | error fault =>
      simp only [hcheck] at h
      cases h
    | ok u =>
      simp only [hcheck] at h
      cases h
      exact hcheck

/-- **Settings that are written and read again.** Those that make sense are read back. For the
others reading fails as the check does, and the fault says what is wrong with the settings. Whatever
text settings are read from, they make sense, so they are read back from their own text. -/
theorem read_toText_iff_check :
    (∀ s : Settings, (read s.toText = .ok s ↔ s.check = .ok ()) ∧
      (∀ fault, read s.toText = .error fault ↔ s.check = .error fault) ∧
      (s.check = .ok () ↔ 1 ≤ s.leastPriority ∧ s.leastPriority ≤ s.greatestPriority) ∧
      ∀ fault, s.check = .error fault → ∃ problem, fault = .settings problem) ∧
    ∀ text s, read text = .ok s →
      1 ≤ s.leastPriority ∧ s.leastPriority ≤ s.greatestPriority ∧ read s.toText = .ok s := by
  refine ⟨fun s => ⟨?_, ?_, check_eq_ok, ?_⟩, ?_⟩
  · rw [read_toText]
    cases s.check <;> simp [Except.map]
  · intro fault
    rw [read_toText]
    cases s.check <;> simp [Except.map]
  · intro fault h
    rcases check_eq_error.1 h with ⟨-, rfl⟩ | ⟨-, -, rfl⟩
    · exact ⟨_, rfl⟩
    · exact ⟨_, rfl⟩
  · intro text s h
    have hcheck := check_of_read h
    refine ⟨(check_eq_ok.1 hcheck).1, (check_eq_ok.1 hcheck).2, ?_⟩
    rw [read_toText, hcheck]
    rfl

/-- What a text leaves out is as in the standard settings. -/
theorem fromOneToFive_read_back :
    read "\x7b\"max_priority\":5\x7d" = .ok ⟨1, 5, true⟩ ∧
      (1 : Int32) ≤ 1 ∧ (1 : Int32) ≤ 5 ∧ read (toText ⟨1, 5, true⟩) = .ok ⟨1, 5, true⟩ := by
  have htext : (Json.record [("max_priority", .int 5)]).write .compact =
      "\x7b\"max_priority\":5\x7d" := by
    decide +kernel
  have hplain : (Json.record [("max_priority", .int 5)]).Plain := by
    apply Json.plain_record
    intro f hf
    rw [List.mem_singleton.1 hf]
    exact .scalar trivial
  have hread : read "\x7b\"max_priority\":5\x7d" = .ok ⟨1, 5, true⟩ := by
    rw [← htext, read, Json.read_write hplain]
    decide +kernel
  exact ⟨hread, read_toText_iff_check.2 _ _ hread⟩

end Settings

end SortingOffice
