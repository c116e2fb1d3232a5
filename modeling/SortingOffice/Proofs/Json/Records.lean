import SortingOffice.Stored
import SortingOffice.Proofs.Json.RoundTrip
import SortingOffice.Proofs.Samples
import SortingOffice.Proofs.Time.FullText

/-!
# Records read back

Accounts, mails, headers and paths are stored as documents. Each field is found again under its
name, and each kind of value is read as it was written. Only a leap second within a minute is read
as the second that follows it.

* `Json.Restores`: a stored form from which values are read, and which is theirs too.
* **`Json.fields?_record`**: an object gives its fields.
* `Words.ofJson?_toJson`, `Moment.ofJson?_toJson` and their like: what each stored form gives.
* **`Json.restores_shown`**: accounts and paths are restored from their texts, and mails and headers
  as far as the time received shows.
-/

namespace SortingOffice

namespace Json

/-- From the text of whatever is stored the value that it shows is read, and what is read has the
same text. -/
def Restores {α : Type} (toJson : α → Json) (ofJson? : Json → Option α) (shown : α → α) : Prop :=
  ∀ (x : α) (layout : Layout),
    (read ((toJson x).write layout)).bind ofJson? = some (shown x) ∧
      ∀ y, (read ((toJson x).write layout)).bind ofJson? = some y →
        (toJson y).write layout = (toJson x).write layout

theorem restores_of_ofJson? {α : Type} {toJson : α → Json} {ofJson? : Json → Option α}
    {shown : α → α} (hplain : ∀ x, (toJson x).Plain)
    (hof : ∀ x, ofJson? (toJson x) = some (shown x)) (hsame : ∀ x, toJson (shown x) = toJson x) :
    Restores toJson ofJson? shown := by
  intro x layout
  have hread : (read ((toJson x).write layout)).bind ofJson? = some (shown x) := by
    rw [read_write (hplain x), Option.bind_some, hof]
  refine ⟨hread, ?_⟩
  intro y hy
  rw [hread, Option.some_inj] at hy
  rw [← hy, hsame]

/-! ## Values of fields -/

theorem plain_text (s : String) : (text s).Plain := .scalar ⟨s, rfl⟩

@[simp] theorem string?_text (s : String) : (text s).string? = some s := stringOf?_codesOf s

theorem plain_record {fields : List (String × Json)} (h : ∀ f ∈ fields, f.2.Plain) :
    (record fields).Plain := by
  refine .object ?_ ?_
  · intro m hm
    obtain ⟨f, -, rfl⟩ := List.mem_map.1 hm
    exact ⟨f.1, rfl⟩
  · intro m hm
    obtain ⟨f, hf, rfl⟩ := List.mem_map.1 hm
    exact h f hf

/-- What is read back one by one is read back as a list. -/
theorem mapM_map_of_inverse {α β : Type} {write : α → β} {read? : β → Option α}
    (h : ∀ x, read? (write x) = some x) (xs : List α) : (xs.map write).mapM read? = some xs := by
  induction xs with
  | nil => rfl
  | cons x xs ih => simp [List.mapM_cons, h, ih]

theorem member?_codesOf (f : String × Json) : member? (codesOf f.1, f.2) = some f := by
  rw [member?, stringOf?_codesOf]
  rfl

/-- **An object gives its fields.** -/
theorem fields?_record {names : List String} {fields : List (String × Json)}
    (hnames : fields.map Prod.fst = names) (hnodup : names.Nodup) :
    (record fields).fields? names = some ⟨true, fields⟩ := by
  have hall : fields.filter (fun f => names.contains f.1) = fields := by
    rw [List.filter_eq_self]
    intro f hf
    rw [List.contains_iff_mem, ← hnames]
    exact List.mem_map_of_mem hf
  rw [record, fields?, mapM_map_of_inverse member?_codesOf]
  simp only [Option.bind_eq_bind, Option.bind_some, hall, hnames, if_pos hnodup]

end Json

/-! ## Stored forms -/

namespace Words

theorem plain_toJson (words : Words) : words.toJson.Plain := by
  refine .array ?_
  intro v hv
  obtain ⟨s, -, rfl⟩ := List.mem_map.1 hv
  exact Json.plain_text s

@[simp] theorem ofJson?_toJson (words : Words) : ofJson? words.toJson = some words := by
  have hlist : Std.ExtTreeSet.ofList words.toList = words := by
    apply Std.ExtTreeSet.ext_mem
    intro s
    rw [Std.ExtTreeSet.mem_ofList]
    simp
  rw [ofJson?, toJson, Json.strings?, Json.mapM_map_of_inverse Json.string?_text,
    Option.map_some, hlist]

end Words

namespace Moment

theorem plain_toJson (m : Moment) : m.toJson.Plain := Json.plain_text m.toText

@[simp] theorem ofJson?_toJson (m : Moment) : ofJson? m.toJson = some m.shown := by
  rw [ofJson?, toJson, Json.string?_text, Option.bind_some, readText_toText]
  rfl

theorem toJson_shown (m : Moment) : m.shown.toJson = m.toJson := by
  rw [toJson, toText_shown, toJson]

end Moment

namespace Account

theorem plain_toJson (a : Account) : a.toJson.Plain := by
  apply Json.plain_record
  simp [Json.plain_text]

theorem ofJson?_toJson (a : Account) : ofJson? a.toJson = some a := by
  have hfields : a.toJson.fields? ["email", "name"] =
      some ⟨true, [("email", .text a.email), ("name", .text a.name)]⟩ :=
    Json.fields?_record rfl (by decide)
  rw [ofJson?, hfields]
  simp [Record.get?, List.lookup_cons]

theorem ofNullable?_toJson (a : Account) : ofNullable? a.toJson = some (some a) := by
  show (ofJson? a.toJson).map some = _
  rw [ofJson?_toJson, Option.map_some]

theorem restores : Json.Restores toJson ofJson? id :=
  Json.restores_of_ofJson? plain_toJson ofJson?_toJson fun _ => rfl

end Account

namespace Mail

theorem plain_toJson (m : Mail) : m.toJson.Plain := by
  have hsender : (m.sender.elim .null Account.toJson).Plain := by
    cases m.sender with
    | none => exact .scalar trivial
    | some a => exact a.plain_toJson
  apply Json.plain_record
  simp [hsender, Json.plain_text, Words.plain_toJson, Moment.plain_toJson]

/-- The mail that is read from what a mail shows. -/
def shown (m : Mail) : Mail := { m with received := m.received.shown }

theorem shown_eq_self_iff {m : Mail} : m.shown = m ↔ ¬ m.received.clock.IsInnerLeap := by
  rw [← Moment.shown_eq_self_iff]
  constructor
  · exact fun heq => congrArg received heq
  · intro heq
    rw [shown, heq]

theorem toJson_shown (m : Mail) : m.shown.toJson = m.toJson := by
  rw [toJson, shown, Moment.toJson_shown, toJson]

theorem ofJson?_toJson (m : Mail) : ofJson? m.toJson = some m.shown := by
  have hfields : m.toJson.fields? ["sender", "recipients", "subject", "body", "received"] =
      some ⟨true, [("sender", m.sender.elim .null Account.toJson),
        ("recipients", m.recipients.toJson), ("subject", .text m.subject), ("body", .text m.body),
        ("received", m.received.toJson)]⟩ :=
    Json.fields?_record rfl (by decide)
  have hsender : Account.ofNullable? (m.sender.elim .null Account.toJson) = some m.sender := by
    cases m.sender with
    | none => rfl
    | some a => exact a.ofNullable?_toJson
  rw [ofJson?, hfields]
  simp [Record.get?, List.lookup_cons, hsender, shown]

theorem restores : Json.Restores toJson ofJson? shown :=
  Json.restores_of_ofJson? plain_toJson ofJson?_toJson toJson_shown

end Mail

namespace Header

theorem plain_toJson (h : Header) : h.toJson.Plain := by
  apply Json.plain_record
  simp [Json.plain_text, Words.plain_toJson, Moment.plain_toJson]

/-- The header that is read from what a header shows. -/
def shown (h : Header) : Header := { h with received := h.received.shown }

theorem shown_eq_self_iff {h : Header} : h.shown = h ↔ ¬ h.received.clock.IsInnerLeap := by
  rw [← Moment.shown_eq_self_iff]
  constructor
  · exact fun heq => congrArg received heq
  · intro heq
    rw [shown, heq]

theorem toJson_shown (h : Header) : h.shown.toJson = h.toJson := by
  rw [toJson, shown, Moment.toJson_shown, toJson]

theorem ofJson?_toJson (h : Header) : ofJson? h.toJson = some h.shown := by
  have hfields : h.toJson.fields? ["sender", "subject", "recipients", "received"] =
      some ⟨true, [("sender", .text h.sender), ("subject", .text h.subject),
        ("recipients", h.recipients.toJson), ("received", h.received.toJson)]⟩ :=
    Json.fields?_record rfl (by decide)
  rw [ofJson?, hfields]
  simp [Record.get?, List.lookup_cons, shown]

theorem restores : Json.Restores toJson ofJson? shown :=
  Json.restores_of_ofJson? plain_toJson ofJson?_toJson toJson_shown

end Header

namespace Path

theorem plain_toJson (p : Path) : p.toJson.Plain := Json.plain_text p.text

theorem ofJson?_toJson (p : Path) : ofJson? p.toJson = some p := by
  rw [ofJson?, toJson, Json.string?_text]
  rfl

theorem restores : Json.Restores toJson ofJson? id :=
  Json.restores_of_ofJson? plain_toJson ofJson?_toJson fun _ => rfl

end Path

/-- **What is restored from texts.** Accounts and paths are restored from their texts. Mails and
headers are, too, exactly if the time received is not in a leap second within a minute, and then the
second that follows is restored. In any case what is restored has the same text. -/
theorem Json.restores_shown :
    Restores Account.toJson Account.ofJson? id ∧ Restores Path.toJson Path.ofJson? id ∧
      Restores Mail.toJson Mail.ofJson? Mail.shown ∧
      Restores Header.toJson Header.ofJson? Header.shown ∧
      (∀ m : Mail, m.shown = m ↔ ¬ m.received.clock.IsInnerLeap) ∧
      ∀ h : Header, h.shown = h ↔ ¬ h.received.clock.IsInnerLeap :=
  ⟨Account.restores, Path.restores, Mail.restores, Header.restores,
    fun _ => Mail.shown_eq_self_iff, fun _ => Header.shown_eq_self_iff⟩

/-- A time of day in the leap second behind 23:56:04. It shows 23:56:05.333333333. -/
def Clock.innerLeap : Clock := ⟨23, 56, 4, 1333333333, by decide, by decide, by decide, by decide⟩

/-- A mail that was received in that leap second. -/
def Mail.inLeap : Mail := { Mailbox.exam with received.clock := .innerLeap }

/-- The second behind a leap second within a minute has the same text. -/
theorem Json.not_forall_restores :
    ¬ (Restores Account.toJson Account.ofJson? id ∧ Restores Mail.toJson Mail.ofJson? id ∧
      Restores Header.toJson Header.ofJson? id ∧ Restores Path.toJson Path.ofJson? id) := by
  rintro ⟨-, hmail, -, -⟩
  have hself := (hmail .inLeap .compact).1
  rw [(Mail.restores .inLeap .compact).1, Option.some_inj] at hself
  exact Mail.shown_eq_self_iff.1 hself (by decide)

end SortingOffice
