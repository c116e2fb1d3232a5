import SortingOffice.Json.Value

/-!
# JSON tokens

A document's text is a row of tokens with white space between them.

* `Token`: brackets, commas, colons and scalars.
* `Token.next?`: the token at the front of a text.
* `Token.all?`: all tokens of a text.
-/

namespace SortingOffice

/-- A piece of a JSON text. -/
inductive Token
  | openArray
  | closeArray
  | openObject
  | closeObject
  | comma
  | colon
  | scalar (s : Scalar)
deriving DecidableEq, Repr

namespace Token

/-! ## Strings -/

/-- The value of a hexadecimal digit of either case. -/
def hexDigit? (c : Char) : Option Nat :=
  if '0' ≤ c ∧ c ≤ '9' then some (c.toNat - '0'.toNat)
  else if 'a' ≤ c ∧ c ≤ 'f' then some (c.toNat - 'a'.toNat + 10)
  else if 'A' ≤ c ∧ c ≤ 'F' then some (c.toNat - 'A'.toNat + 10)
  else none

/-- The number written with four hexadecimal digits. -/
def hex? (a b c d : Char) : Option Nat := do
  pure ((((← hexDigit? a) * 16 + (← hexDigit? b)) * 16 + (← hexDigit? c)) * 16 + (← hexDigit? d))

/-- The number of the character that a backslash and a letter stand for. -/
def escaped? : Char → Option Nat
  | '"' => some 0x22
  | '\\' => some 0x5C
  | '/' => some 0x2F
  | 'b' => some 0x08
  | 'f' => some 0x0C
  | 'n' => some 0x0A
  | 'r' => some 0x0D
  | 't' => some 0x09
  | _ => none

/-- Reads a string behind its opening quotation mark: the numbers of its characters and escapes,
and what follows the closing mark. Control characters have to be escaped. -/
def quoted? : List Char → Option (List Nat × List Char)
  | [] => none
  | '"' :: rest => some ([], rest)
  | '\\' :: 'u' :: a :: b :: c :: d :: rest =>
    match hex? a b c d with
    | none => none
    | some n => (quoted? rest).map fun (ns, rest) => (n :: ns, rest)
  | '\\' :: e :: rest =>
    match escaped? e with
    | none => none
    | some n => (quoted? rest).map fun (ns, rest) => (n :: ns, rest)
  | c :: rest =>
    if c.toNat < 0x20 ∨ c = '\\' then none
    else (quoted? rest).map fun (ns, rest) => (c.toNat :: ns, rest)

/-! ## Numbers

The parts of a number are taken off the front one after the other. Each part is given with what
follows it.
-/

/-- The run of digits at the front, which is not empty. -/
def digits? (cs : List Char) : Option (List Char × List Char) :=
  match cs.takeWhile Char.isDigit with
  | [] => none
  | ds => some (ds, cs.dropWhile Char.isDigit)

/-- A minus sign or nothing. -/
def sign : List Char → List Char × List Char
  | '-' :: rest => (['-'], rest)
  | cs => ([], cs)

/-- The whole part: a zero alone, or digits that start with another digit. -/
def whole? : List Char → Option (List Char × List Char)
  | '0' :: rest => some (['0'], rest)
  | cs => digits? cs

/-- A point with digits behind it, or nothing. -/
def fraction? : List Char → Option (List Char × List Char)
  | '.' :: rest => (digits? rest).map fun (ds, rest) => ('.' :: ds, rest)
  | cs => some ([], cs)

/-- A letter `e` of either case with digits behind it, which may have a sign, or nothing. -/
def exponent? : List Char → Option (List Char × List Char)
  | e :: rest =>
    if e = 'e' ∨ e = 'E' then
      match rest with
      | '+' :: rest => (digits? rest).map fun (ds, rest) => (e :: '+' :: ds, rest)
      | '-' :: rest => (digits? rest).map fun (ds, rest) => (e :: '-' :: ds, rest)
      | _ => (digits? rest).map fun (ds, rest) => (e :: ds, rest)
    else some ([], e :: rest)
  | [] => some ([], [])

/-- Reads a number. It is an integer if it has neither fraction nor exponent and is not a zero
with a sign. -/
def number? (cs : List Char) : Option (Scalar × List Char) := do
  let (sg, cs) := sign cs
  let (wh, cs) ← whole? cs
  let (fr, cs) ← fraction? cs
  let (ex, cs) ← exponent? cs
  let n := Nat.ofDigitChars 10 wh 0
  if fr = [] ∧ ex = [] ∧ (sg = [] ∨ n ≠ 0) then
    pure (.int (if sg = [] then n else -n), cs)
  else
    pure (.decimal (sg ++ wh ++ fr ++ ex), cs)

/-! ## Texts -/

/-- The characters that may stand between tokens. -/
def isSpace (c : Char) : Bool := c == ' ' || c == '\n' || c == '\r' || c == '\t'

/-- The token at the front of a text, and what follows it. -/
def next? : List Char → Option (Token × List Char)
  | '[' :: rest => some (openArray, rest)
  | ']' :: rest => some (closeArray, rest)
  | '\x7b' :: rest => some (openObject, rest)
  | '\x7d' :: rest => some (closeObject, rest)
  | ',' :: rest => some (comma, rest)
  | ':' :: rest => some (colon, rest)
  | '"' :: rest => (quoted? rest).map fun (ns, rest) => (scalar (.text ns), rest)
  | 'n' :: 'u' :: 'l' :: 'l' :: rest => some (scalar .null, rest)
  | 't' :: 'r' :: 'u' :: 'e' :: rest => some (scalar (.bool true), rest)
  | 'f' :: 'a' :: 'l' :: 's' :: 'e' :: rest => some (scalar (.bool false), rest)
  | cs => (number? cs).map fun (n, rest) => (scalar n, rest)

theorem length_of_quoted? {cs rest : List Char} {ns : List Nat}
    (h : quoted? cs = some (ns, rest)) : rest.length < cs.length := by
  fun_induction quoted? cs generalizing ns rest <;>
    simp_all only [Option.map_eq_some_iff, reduceCtorEq, Option.some.injEq, Prod.mk.injEq,
      List.length_cons, Prod.exists] <;> grind

theorem length_of_digits? {cs ds rest : List Char} (h : digits? cs = some (ds, rest)) :
    rest.length < cs.length := by
  have hlen : (cs.takeWhile Char.isDigit).length + (cs.dropWhile Char.isDigit).length
      = cs.length := by
    rw [← List.length_append, List.takeWhile_append_dropWhile]
  unfold digits? at h
  split at h
  · cases h
  · rename_i hne
    cases h
    have : cs.takeWhile Char.isDigit ≠ [] := hne
    have := List.length_pos_iff.2 this
    omega

theorem length_of_sign (cs : List Char) : (sign cs).2.length ≤ cs.length := by
  unfold sign; split <;> simp

theorem length_of_whole? {cs wh rest : List Char} (h : whole? cs = some (wh, rest)) :
    rest.length < cs.length := by
  unfold whole? at h
  split at h
  · cases h; simp
  · exact length_of_digits? h

theorem length_of_fraction? {cs fr rest : List Char} (h : fraction? cs = some (fr, rest)) :
    rest.length ≤ cs.length := by
  unfold fraction? at h
  split at h
  · obtain ⟨⟨ds, r⟩, hd, he⟩ := Option.map_eq_some_iff.1 h
    cases he
    have := length_of_digits? hd
    simp; omega
  · cases h; simp

theorem length_of_exponent? {cs ex rest : List Char} (h : exponent? cs = some (ex, rest)) :
    rest.length ≤ cs.length := by
  unfold exponent? at h
  split at h
  · split at h
    · split at h <;>
      · obtain ⟨⟨ds, r⟩, hd, he⟩ := Option.map_eq_some_iff.1 h
        cases he
        have := length_of_digits? hd
        simp only [List.length_cons] at *
        omega
    · cases h; simp
  · cases h; simp

theorem length_of_number? {cs rest : List Char} {n : Scalar} (h : number? cs = some (n, rest)) :
    rest.length < cs.length := by
  simp only [number?, Option.bind_eq_bind, Option.bind_eq_some_iff, Prod.exists] at h
  obtain ⟨wh, cs₁, h₁, fr, cs₂, h₂, ex, cs₃, h₃, h⟩ := h
  have h₀ := length_of_sign cs
  have h₁ := length_of_whole? h₁
  have h₂ := length_of_fraction? h₂
  have h₃ := length_of_exponent? h₃
  obtain rfl : rest = cs₃ := by split at h <;> cases h <;> rfl
  omega

theorem length_of_next? {cs rest : List Char} {t : Token} (h : next? cs = some (t, rest)) :
    rest.length < cs.length := by
  unfold next? at h
  split at h
  case h_7 =>
    obtain ⟨⟨ns, r⟩, hq, he⟩ := Option.map_eq_some_iff.1 h
    cases he
    have := length_of_quoted? hq
    simp; omega
  case h_11 =>
    obtain ⟨⟨ns, r⟩, hn, he⟩ := Option.map_eq_some_iff.1 h
    cases he
    exact length_of_number? hn
  all_goals
    cases h
    simp only [List.length_cons]
    omega

/-- The tokens of a text, if it is a row of tokens. -/
def all? (cs : List Char) : Option (List Token) :=
  match hs : cs.dropWhile isSpace with
  | [] => some []
  | c :: rest =>
    match hn : next? (c :: rest) with
    | none => none
    | some (t, rest') =>
      have : rest'.length < cs.length :=
        Nat.lt_of_lt_of_le (length_of_next? hn) (hs ▸ (List.dropWhile_suffix isSpace).length_le)
      (all? rest').map (t :: ·)
termination_by cs.length

end Token

end SortingOffice
