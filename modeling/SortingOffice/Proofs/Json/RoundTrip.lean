import SortingOffice.Json.Reading
import SortingOffice.Proofs.Json.Scalars

/-!
# Documents read back

The text of a document is a row of tokens with white space between them, and the tokens make the
document. Both layouts have the same tokens.

* `Json.tokens`: the tokens of a document.
* `Json.Plain`: the documents that records are stored as.
* `Token.Spells`, **`Json.spells_chars`**: the text of a plain document is its tokens.
* `Json.Builds`, **`Json.builds`**: the tokens of any document make that document.
* **`Json.read_write`**: a plain document is read back from its text in either layout.
-/

namespace SortingOffice

namespace Json

/-! ## Tokens of a document -/

theorem sizeOf_member_lt {ms : List (List Nat × Json)} {m : List Nat × Json} (h : m ∈ ms) :
    sizeOf m.2 < 1 + sizeOf ms := by
  have hmem := List.sizeOf_lt_of_mem h
  have hsnd : sizeOf m = 1 + sizeOf m.1 + sizeOf m.2 := rfl
  omega

/-- Rows of tokens with a comma between each two of them. -/
def separated : List (List Token) → List Token
  | [] => []
  | row :: rows => row ++ rows.flatMap (.comma :: ·)

/-- The tokens of a document. -/
def tokens : Json → List Token
  | scalar s => [.scalar s]
  | array vs => .openArray :: separated (vs.map tokens) ++ [.closeArray]
  | object ms =>
    .openObject :: separated (ms.map fun m => .scalar (.text m.1) :: .colon :: tokens m.2) ++
      [.closeObject]
termination_by j => sizeOf j
decreasing_by
  · have := List.sizeOf_lt_of_mem ‹_›
    rw [array.sizeOf_spec]
    omega
  · rw [object.sizeOf_spec]
    exact sizeOf_member_lt ‹_›

/-- The documents that records are stored as. Their numbers are integers, and their strings and keys
have characters only. -/
inductive Plain : Json → Prop
  | scalar {s : Scalar} : s.Plain → Plain (scalar s)
  | array {vs : List Json} : (∀ v ∈ vs, Plain v) → Plain (array vs)
  | object {ms : List (List Nat × Json)} :
    (∀ m ∈ ms, (Scalar.text m.1).Plain) → (∀ m ∈ ms, Plain m.2) → Plain (object ms)

/-- Induction on documents. -/
theorem induct {P : Json → Prop} (scalar : ∀ s, P (scalar s))
    (array : ∀ vs, (∀ v ∈ vs, P v) → P (array vs))
    (object : ∀ ms, (∀ m ∈ ms, P m.2) → P (object ms)) : ∀ j, P j
  | .scalar s => scalar s
  | .array vs => array vs fun v _ => induct scalar array object v
  | .object ms => object ms fun m _ => induct scalar array object m.2
termination_by j => sizeOf j
decreasing_by
  · have := List.sizeOf_lt_of_mem ‹_›
    rw [Json.array.sizeOf_spec]
    omega
  · rw [Json.object.sizeOf_spec]
    exact sizeOf_member_lt ‹_›

end Json

namespace Token

variable {cs rest : List Char} {t : Token}

/-! ## Rows of tokens -/

theorem all?_eq (cs : List Char) : all? cs =
    match cs.dropWhile isSpace with
    | [] => some []
    | c :: rest => (next? (c :: rest)).bind fun p => (all? p.2).map (p.1 :: ·) := by
  rw [all?]
  split
  · rename_i hdrop
    rw [hdrop]
  · rename_i c rest hdrop
    split
    · rename_i hnext
      simp only [hdrop, hnext, Option.bind_none]
    · rename_i hnext
      simp only [hdrop, hnext, Option.bind_some]

theorem all?_nil : all? [] = some [] := all?_eq []

theorem all?_of_space {c : Char} (hc : isSpace c = true) (cs : List Char) :
    all? (c :: cs) = all? cs := by
  rw [all?_eq, List.dropWhile_cons_of_pos hc, ← all?_eq]

theorem all?_of_next? {c : Char} (hc : isSpace c = false)
    (hnext : next? (c :: cs) = some (t, rest)) : all? (c :: cs) = (all? rest).map (t :: ·) := by
  rw [all?_eq, List.dropWhile_cons_of_neg (by simp [hc])]
  simp only [hnext, Option.bind_some]

/-- The text is that of a row of tokens, whatever follows, as long as it cannot go on with a
number. -/
def Spells (cs : List Char) (ts : List Token) : Prop :=
  ∀ rest, EndsNumber rest → all? (cs ++ rest) = (all? rest).map (ts ++ ·)

theorem all?_spaces {spaces : List Char} (h : ∀ c ∈ spaces, isSpace c = true) (cs : List Char) :
    all? (spaces ++ cs) = all? cs := by
  induction spaces with
  | nil => rfl
  | cons c spaces ih =>
    obtain ⟨hc, hspaces⟩ := List.forall_mem_cons.1 h
    rw [List.cons_append, all?_of_space hc, ih hspaces]

theorem all?_lineStart (layout : Layout) (depth : Nat) (cs : List Char) :
    all? (layout.lineStart depth ++ cs) = all? cs := by
  apply all?_spaces
  cases layout with
  | compact => exact List.forall_mem_nil _
  | indented =>
    refine List.forall_mem_cons.2 ⟨rfl, ?_⟩
    intro c hc
    rw [(List.mem_replicate.1 hc).2]
    rfl

theorem all?_keyEnd (layout : Layout) (cs : List Char) :
    all? (layout.keyEnd ++ cs) = (all? cs).map (colon :: ·) := by
  cases layout with
  | compact => exact all?_of_next? rfl rfl
  | indented =>
    show all? (':' :: ' ' :: cs) = _
    rw [all?_of_next? rfl rfl, all?_of_space rfl]

theorem endsNumber_lineStart (layout : Layout) (depth : Nat) (hcs : EndsNumber cs) :
    EndsNumber (layout.lineStart depth ++ cs) := by
  cases layout with
  | compact => exact hcs
  | indented =>
    rintro c hc
    cases hc
    decide

theorem isSpace_of_number {c : Char} (hc : c = '-' ∨ c.isDigit = true) : isSpace c = false := by
  rw [Bool.eq_false_iff]
  intro hspace
  simp only [isSpace, Bool.or_eq_true, beq_iff_eq] at hspace
  rcases hspace with ((rfl | rfl) | rfl) | rfl <;> simp at hc

theorem exists_chars_eq_cons {s : Scalar} (hs : s.Plain) :
    ∃ c cs, s.chars = c :: cs ∧ isSpace c = false := by
  cases s with
  | null => exact ⟨_, _, rfl, rfl⟩
  | bool b => cases b <;> exact ⟨_, _, rfl, rfl⟩
  | int n =>
    obtain ⟨c, cs, hcs, hc⟩ := exists_integer_eq_cons n
    exact ⟨c, cs, hcs, isSpace_of_number hc⟩
  | decimal spelling => exact hs.elim
  | text codes => exact ⟨_, _, rfl, rfl⟩

theorem spells_scalar {s : Scalar} (hs : s.Plain) : Spells s.chars [.scalar s] := by
  intro rest hrest
  obtain ⟨c, cs, hcs, hc⟩ := exists_chars_eq_cons hs
  have hnext := next?_chars hs hrest
  rw [hcs, List.cons_append] at hnext
  rw [hcs, List.cons_append, all?_of_next? hc hnext]
  rfl

/-! ## Brackets and commas -/

/-- The character is a token of its own, and it ends a number. -/
structure IsMark (c : Char) (t : Token) : Prop where
  next (cs : List Char) : next? (c :: cs) = some (t, cs)
  space : isSpace c = false
  ends (cs : List Char) : EndsNumber (c :: cs)

theorem isMark_of_next {c : Char} (hnext : ∀ cs, next? (c :: cs) = some (t, cs))
    (hc : isSpace c = false ∧ c.isDigit = false ∧ c ≠ '.' ∧ c ≠ 'e' ∧ c ≠ 'E') : IsMark c t where
  next := hnext
  space := hc.1
  ends cs d hd := by
    cases hd
    exact hc.2

theorem isMark_comma : IsMark ',' .comma := isMark_of_next (fun _ => rfl) (by decide)

theorem isMark_openArray : IsMark '[' .openArray := isMark_of_next (fun _ => rfl) (by decide)

theorem isMark_closeArray : IsMark ']' .closeArray := isMark_of_next (fun _ => rfl) (by decide)

theorem isMark_openObject : IsMark '\x7b' .openObject := isMark_of_next (fun _ => rfl) (by decide)

theorem isMark_closeObject : IsMark '\x7d' .closeObject := isMark_of_next (fun _ => rfl) (by decide)

theorem IsMark.all?_cons {c : Char} (h : IsMark c t) (cs : List Char) :
    all? (c :: cs) = (all? cs).map (t :: ·) := all?_of_next? h.space (h.next cs)

variable {α : Type} {x : α} {xs : List α} {text : α → List Char} {row : α → List Token}
  {o c : Char} {opening closing : Token}

/-- Further rows, each behind a comma. -/
theorem spells_further (h : ∀ x ∈ xs, Spells (text x) (row x)) (layout : Layout) (depth : Nat) :
    Spells (xs.flatMap fun x => ',' :: (layout.lineStart depth ++ text x))
      ((xs.map row).flatMap (.comma :: ·)) := by
  intro rest hrest
  induction xs with
  | nil => simp
  | cons x xs ih =>
    obtain ⟨hx, hxs⟩ := List.forall_mem_cons.1 h
    have hends : EndsNumber
        ((xs.flatMap fun x => ',' :: (layout.lineStart depth ++ text x)) ++ rest) := by
      cases xs with
      | nil => exact hrest
      | cons y ys => exact isMark_comma.ends _
    simp only [List.flatMap_cons, List.map_cons, List.cons_append, List.append_assoc]
    rw [isMark_comma.all?_cons, all?_lineStart, hx _ hends, ih hxs]
    simp [Function.comp_def]

/-- Nothing between an opening and a closing mark. -/
theorem spells_empty (ho : IsMark o opening) (hc : IsMark c closing) :
    Spells [o, c] [opening, closing] := by
  intro rest _
  rw [List.cons_append, List.singleton_append, ho.all?_cons, hc.all?_cons, Option.map_map]
  rfl

/-- Rows between an opening and a closing mark. -/
theorem spells_enclosed (ho : IsMark o opening)
    (hc : IsMark c closing) (h : ∀ y ∈ x :: xs, Spells (text y) (row y)) (layout : Layout)
    (depth : Nat) :
    Spells (o :: (layout.lineStart (depth + 1) ++ (text x ++
        ((xs.flatMap fun y => ',' :: (layout.lineStart (depth + 1) ++ text y)) ++
          (layout.lineStart depth ++ [c])))))
      (opening :: (Json.separated ((x :: xs).map row) ++ [closing])) := by
  intro rest _
  obtain ⟨hx, hxs⟩ := List.forall_mem_cons.1 h
  have hend : EndsNumber (layout.lineStart depth ++ c :: rest) :=
    endsNumber_lineStart layout depth (hc.ends rest)
  have hends : EndsNumber ((xs.flatMap fun y => ',' :: (layout.lineStart (depth + 1) ++ text y)) ++
      (layout.lineStart depth ++ c :: rest)) := by
    cases xs with
    | nil => exact hend
    | cons y ys => exact isMark_comma.ends _
  simp only [List.cons_append, List.append_assoc, List.nil_append]
  rw [ho.all?_cons, all?_lineStart, hx _ hends, spells_further hxs layout (depth + 1) _ hend,
    all?_lineStart, hc.all?_cons]
  simp [Json.separated, Function.comp_def]

end Token

namespace Json

open Token

/-! ## From the text to the tokens -/

theorem moreItems_eq (layout : Layout) (depth : Nat) (vs : List Json) :
    moreItems layout depth vs =
      vs.flatMap fun v => ',' :: (layout.lineStart depth ++ chars layout depth v) := by
  induction vs with
  | nil => rfl
  | cons v vs ih => simp [moreItems, ih]

theorem moreMembers_eq (layout : Layout) (depth : Nat) (ms : List (List Nat × Json)) :
    moreMembers layout depth ms =
      ms.flatMap fun m => ',' :: (layout.lineStart depth ++ memberChars layout depth m) := by
  induction ms with
  | nil => rfl
  | cons m ms ih => simp [moreMembers, ih]

theorem spells_member {layout : Layout} {depth : Nat} {m : List Nat × Json}
    (hkey : (Scalar.text m.1).Plain) (h : Spells (chars layout depth m.2) m.2.tokens) :
    Spells (memberChars layout depth m) (.scalar (.text m.1) :: .colon :: m.2.tokens) := by
  intro rest hrest
  have hends : EndsNumber (layout.keyEnd ++ (chars layout depth m.2 ++ rest)) := by
    cases layout <;> exact (isMark_of_next (t := .colon) (fun _ => rfl) (by decide)).ends _
  have hquoted : Scalar.quoted m.1 = (Scalar.text m.1).chars := rfl
  rw [memberChars, hquoted, List.append_assoc, List.append_assoc, spells_scalar hkey _ hends,
    all?_keyEnd, h rest hrest, Option.map_map, Option.map_map]
  rfl

/-- **The text of a plain document is its tokens**, in either layout. -/
theorem spells_chars {j : Json} (hj : j.Plain) (layout : Layout) (depth : Nat) :
    Spells (chars layout depth j) j.tokens := by
  induction hj generalizing depth with
  | scalar hs =>
    rw [chars, tokens]
    exact spells_scalar hs
  | @array vs _ ih =>
    cases vs with
    | nil =>
      rw [chars, tokens]
      exact spells_empty isMark_openArray isMark_closeArray
    | cons v vs =>
      have hrows := spells_enclosed isMark_openArray isMark_closeArray
        (fun v hv => ih v hv (depth + 1)) layout depth
      rw [chars, moreItems_eq, tokens]
      simpa only [List.cons_append, List.append_assoc] using hrows
  | @object ms hkeys _ ih =>
    cases ms with
    | nil =>
      rw [chars, tokens]
      exact spells_empty isMark_openObject isMark_closeObject
    | cons m ms =>
      have hrows := spells_enclosed isMark_openObject isMark_closeObject
        (fun m hm => spells_member (hkeys m hm) (ih m hm (depth + 1))) layout depth
      rw [chars, moreMembers_eq, tokens]
      simpa only [List.cons_append, List.append_assoc] using hrows

/-! ## From the tokens to the document -/

/-- The first item of an array starts as any value does. -/
theorem foldlM_firstItem (j : Json) (frames : List Frame) (ts : List Token) :
    (j.tokens ++ ts).foldlM Reading.step ⟨.firstItem, frames⟩ =
      (j.tokens ++ ts).foldlM Reading.step ⟨.value, .array [] :: frames⟩ := by
  cases j <;> rw [tokens] <;> rfl

/-- The tokens make the document wherever a value is due. -/
def Builds (j : Json) : Prop := ∀ (frames : List Frame) (ts : List Token),
  (j.tokens ++ ts).foldlM Reading.step ⟨.value, frames⟩ = ts.foldlM Reading.step ⟨.next j, frames⟩

/-- Further items close an array with them behind those that are there. -/
theorem foldlM_furtherItems {vs : List Json} (h : ∀ v ∈ vs, v.Builds) (v : Json)
    (before : List Json) (frames : List Frame) (ts : List Token) :
    ((vs.map tokens).flatMap (.comma :: ·) ++ .closeArray :: ts).foldlM Reading.step
        ⟨.next v, .array before :: frames⟩ =
      ts.foldlM Reading.step ⟨.next (.array (before.reverse ++ v :: vs)), frames⟩ := by
  induction vs generalizing v before with
  | nil =>
    show ts.foldlM Reading.step ⟨.next (.array (v :: before).reverse), frames⟩ = _
    rw [List.reverse_cons]
  | cons w vs ih =>
    obtain ⟨hw, hvs⟩ := List.forall_mem_cons.1 h
    simp only [List.map_cons, List.flatMap_cons, List.cons_append, List.append_assoc]
    show List.foldlM Reading.step ⟨.value, .array (v :: before) :: frames⟩ _ = _
    rw [hw, ih hvs, List.reverse_cons, List.append_assoc, List.singleton_append]

/-- Further members close an object with them behind those that are there. -/
theorem foldlM_furtherMembers {ms : List (List Nat × Json)} (h : ∀ m ∈ ms, m.2.Builds)
    (key : List Nat) (v : Json) (before : List (List Nat × Json)) (frames : List Frame)
    (ts : List Token) :
    ((ms.map fun m => .scalar (.text m.1) :: .colon :: m.2.tokens).flatMap (.comma :: ·) ++
        .closeObject :: ts).foldlM Reading.step ⟨.next v, .object before key :: frames⟩ =
      ts.foldlM Reading.step ⟨.next (.object (before.reverse ++ (key, v) :: ms)), frames⟩ := by
  induction ms generalizing key v before with
  | nil =>
    show ts.foldlM Reading.step ⟨.next (.object ((key, v) :: before).reverse), frames⟩ = _
    rw [List.reverse_cons]
  | cons m ms ih =>
    obtain ⟨hm, hms⟩ := List.forall_mem_cons.1 h
    simp only [List.map_cons, List.flatMap_cons, List.cons_append, List.append_assoc]
    show List.foldlM Reading.step ⟨.value, .object ((key, v) :: before) m.1 :: frames⟩ _ = _
    rw [hm, ih hms, List.reverse_cons, List.append_assoc, List.singleton_append]

/-- **The tokens of a document make that document.** -/
theorem builds (j : Json) : j.Builds := by
  induction j using induct with
  | scalar s =>
    intro frames ts
    rw [tokens]
    rfl
  | array vs ih =>
    intro frames ts
    rw [tokens, List.cons_append, List.cons_append, List.append_assoc, List.singleton_append]
    show List.foldlM Reading.step ⟨.firstItem, frames⟩ _ = _
    cases vs with
    | nil => rfl
    | cons v vs =>
      obtain ⟨hv, hvs⟩ := List.forall_mem_cons.1 ih
      rw [List.map_cons, separated, List.append_assoc, foldlM_firstItem, hv,
        foldlM_furtherItems hvs]
      rfl
  | object ms ih =>
    intro frames ts
    rw [tokens, List.cons_append, List.cons_append, List.append_assoc, List.singleton_append]
    show List.foldlM Reading.step ⟨.firstKey, frames⟩ _ = _
    cases ms with
    | nil => rfl
    | cons m ms =>
      obtain ⟨hm, hms⟩ := List.forall_mem_cons.1 ih
      rw [List.map_cons, separated, List.append_assoc, List.cons_append, List.cons_append]
      show List.foldlM Reading.step ⟨.value, .object [] m.1 :: frames⟩ _ = _
      rw [hm, foldlM_furtherMembers hms]
      rfl

theorem ofTokens_tokens (j : Json) : ofTokens j.tokens = some j := by
  have h := j.builds [] []
  rw [List.append_nil] at h
  rw [ofTokens, Reading.start, h]
  rfl

/-- **A plain document is read back from its text**, in either layout. -/
theorem read_write {j : Json} (hj : j.Plain) (layout : Layout) : read (j.write layout) = some j := by
  have h := spells_chars hj layout 0 [] (fun _ hc => nomatch hc)
  rw [List.append_nil, all?_nil, Option.map_some, List.append_nil] at h
  rw [read, write, String.toList_ofList, h, Option.bind_some, ofTokens_tokens]

end Json

end SortingOffice
