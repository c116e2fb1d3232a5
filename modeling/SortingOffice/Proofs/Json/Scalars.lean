import Mathlib.Tactic.SplitIfs
import SortingOffice.Json.Token
import SortingOffice.Json.Writing

/-!
# Strings and integers in JSON

A string is written character by character, some of them as escapes, and read up to its closing
mark. An integer is written without leading zeros and read up to a character that cannot go on with
a number.

* **`Json.pairUp_codes`**: the numbers of the characters of a string stand for that string.
* **`Token.quoted?_codes`**: a string is read back.
* `Token.EndsNumber`, **`Token.number?_integer`**: an integer is read back in front of such a text.
* `Scalar.Plain`, **`Token.next?_chars`**: so is every value without parts that the records use.
-/

namespace SortingOffice

namespace Json

/-! ## Characters -/

/-- No character is half of a surrogate pair. -/
theorem not_half (c : Char) : ¬ (0xD800 ≤ c.toNat ∧ c.toNat < 0xE000) := by
  have hc : c.toNat < 0xD800 ∨ (0xDFFF < c.toNat ∧ c.toNat < 0x110000) := c.valid
  omega

/-- **The numbers of characters stand for these characters.** -/
theorem pairUp_codes (cs : List Char) : pairUp (cs.map Char.toNat) = some cs := by
  have hhalf (c : Char) : isHighHalf c.toNat = false ∧ isLowHalf c.toNat = false := by
    have := not_half c
    simp only [isHighHalf, isLowHalf, Bool.and_eq_false_iff, decide_eq_false_iff_not]
    omega
  induction cs with
  | nil => rfl
  | cons c cs ih =>
    cases cs with
    | nil => simp [pairUp, hhalf]
    | cons d cs =>
      rw [List.map_cons] at ih
      simp [pairUp, hhalf, ih]

@[simp] theorem stringOf?_codesOf (s : String) : stringOf? (codesOf s) = some s := by
  rw [stringOf?, codesOf, pairUp_codes, Option.map_some, String.ofList_toList]

end Json

/-- Values that records are made of: integers, and strings of characters. -/
def Scalar.Plain : Scalar → Prop
  | null | bool _ | int _ => True
  | decimal _ => False
  | text codes => ∃ s, codes = Json.codesOf s

namespace Token

open Scalar

variable {cs rest : List Char} {s : Scalar}

/-! ## Strings -/

/-- The escape of a control character shows its number. -/
theorem hexEscape_eq : ∀ n < 0x20,
    hexEscape n = ['\\', 'u', '0', '0', (n / 16).digitChar, (n % 16).digitChar] ∧
      hex? '0' '0' (n / 16).digitChar (n % 16).digitChar = some n := by
  decide +kernel

/-- A character inside a string is read back. -/
theorem quoted?_charsOfCode (c : Char) (rest : List Char) :
    quoted? (charsOfCode c.toNat ++ rest) =
      (quoted? rest).map fun p => (c.toNat :: p.1, p.2) := by
  rw [charsOfCode]
  split_ifs with hmark hslash hback hfeed hline hreturn htab hcontrol
  · rw [hmark]
    simp [quoted?, escaped?]
  · rw [hslash]
    simp [quoted?, escaped?]
  · rw [hback]
    simp [quoted?, escaped?]
  · rw [hfeed]
    simp [quoted?, escaped?]
  · rw [hline]
    simp [quoted?, escaped?]
  · rw [hreturn]
    simp [quoted?, escaped?]
  · rw [htab]
    simp [quoted?, escaped?]
  · obtain ⟨hescape, hhex⟩ := hexEscape_eq c.toNat (hcontrol.resolve_right (Json.not_half c))
    rw [hescape]
    simp [quoted?, hhex]
  · have hquote : c ≠ '"' := fun hc => hmark (hc ▸ rfl)
    have hbackslash : c ≠ '\\' := fun hc => hslash (hc ▸ rfl)
    have hlow : ¬ c.toNat < 0x20 := fun hc => hcontrol (.inl hc)
    rw [Char.ofNat_toNat, List.singleton_append]
    simp [quoted?, hbackslash, hlow]

/-- **A string is read back up to its closing mark.** -/
theorem quoted?_codes (cs rest : List Char) :
    quoted? ((cs.map Char.toNat).flatMap charsOfCode ++ '"' :: rest) =
      some (cs.map Char.toNat, rest) := by
  induction cs with
  | nil => rfl
  | cons c cs ih =>
    rw [List.map_cons, List.flatMap_cons, List.append_assoc, quoted?_charsOfCode, ih,
      Option.map_some]

/-! ## Integers -/

/-- No digit comes next, nor anything else that goes on with a number. -/
def EndsNumber (rest : List Char) : Prop :=
  ∀ c ∈ rest.head?, c.isDigit = false ∧ c ≠ '.' ∧ c ≠ 'e' ∧ c ≠ 'E'

theorem digits?_append {ds : List Char} (hds : ∀ c ∈ ds, c.isDigit = true) (hne : ds ≠ [])
    (hrest : ∀ c ∈ rest.head?, c.isDigit = false) : digits? (ds ++ rest) = some (ds, rest) := by
  have hhead : rest.takeWhile Char.isDigit = [] ∧ rest.dropWhile Char.isDigit = rest := by
    cases rest with
    | nil => exact ⟨rfl, rfl⟩
    | cons c rest => simp [hrest c rfl]
  rw [digits?, List.takeWhile_append_of_pos hds, List.dropWhile_append_of_pos hds, hhead.1,
    hhead.2, List.append_nil]
  cases ds with
  | nil => exact absurd rfl hne
  | cons d ds => rfl

/-- A number is written without leading zeros. -/
theorem eq_zero_of_toDigits {n : Nat} {ds : List Char} (h : Nat.toDigits 10 n = '0' :: ds) :
    n = 0 ∧ ds = [] := by
  induction n using Nat.strongRecOn generalizing ds with
  | ind n ih =>
    by_cases hn : n < 10
    · rw [Nat.toDigits_of_lt_base hn, List.cons.injEq] at h
      have hdigit : ∀ k < 10, k.digitChar = '0' → k = 0 := by decide
      exact ⟨hdigit n hn h.1, h.2.symm⟩
    · rw [Nat.toDigits_of_base_le (by decide) (Nat.le_of_not_lt hn)] at h
      cases hfront : Nat.toDigits 10 (n / 10) with
      | nil => exact absurd hfront Nat.toDigits_ne_nil
      | cons d front =>
        rw [hfront, List.cons_append, List.cons.injEq] at h
        rw [h.1] at hfront
        have := (ih (n / 10) (by omega) hfront).1
        omega

theorem whole?_toDigits (n : Nat) (hrest : ∀ c ∈ rest.head?, c.isDigit = false) :
    whole? (Nat.toDigits 10 n ++ rest) = some (Nat.toDigits 10 n, rest) := by
  have hdigits : digits? (Nat.toDigits 10 n ++ rest) = some (Nat.toDigits 10 n, rest) :=
    digits?_append (fun c hc => Nat.isDigit_of_mem_toDigits (by decide) (by decide) hc)
      Nat.toDigits_ne_nil hrest
  cases hn : Nat.toDigits 10 n with
  | nil => exact absurd hn Nat.toDigits_ne_nil
  | cons d ds =>
    rw [hn] at hdigits
    by_cases hd : d = '0'
    · obtain ⟨-, rfl⟩ := eq_zero_of_toDigits (hd ▸ hn)
      rw [hd]
      rfl
    · rw [← hdigits, List.cons_append, whole?]
      simp [hd]

theorem fraction?_of_ends (hrest : EndsNumber rest) : fraction? rest = some ([], rest) := by
  unfold fraction?
  split
  · exact absurd rfl (hrest '.' rfl).2.1
  · rfl

theorem exponent?_of_ends (hrest : EndsNumber rest) : exponent? rest = some ([], rest) := by
  cases rest with
  | nil => rfl
  | cons c rest =>
    obtain ⟨-, -, hlower, hupper⟩ := hrest c rfl
    simp [exponent?, hlower, hupper]

theorem exists_toDigits_eq_cons (n : Nat) :
    ∃ d ds, Nat.toDigits 10 n = d :: ds ∧ d.isDigit = true := by
  obtain ⟨d, ds, hn⟩ := List.exists_cons_of_ne_nil (Nat.toDigits_ne_nil (n := n) (b := 10))
  refine ⟨d, ds, hn, Nat.isDigit_of_mem_toDigits (b := 10) (n := n) (by decide) (by decide) ?_⟩
  rw [hn]
  exact List.mem_cons_self

theorem sign_toDigits (n : Nat) (rest : List Char) :
    sign (Nat.toDigits 10 n ++ rest) = ([], Nat.toDigits 10 n ++ rest) := by
  obtain ⟨d, ds, hn, hd⟩ := exists_toDigits_eq_cons n
  have hminus : d ≠ '-' := by
    rintro rfl
    cases hd
  rw [hn, List.cons_append]
  simp [sign, hminus]

/-- What is read behind the sign of an integer. -/
theorem number?_of_sign {sg : List Char} {n : Nat}
    (hsign : sign cs = (sg, Nat.toDigits 10 n ++ rest)) (hrest : EndsNumber rest)
    (hzero : sg = [] ∨ n ≠ 0) :
    number? cs = some (.int (if sg = [] then n else -n), rest) := by
  have hwhole := whole?_toDigits n fun c hc => (hrest c hc).1
  rw [number?, hsign]
  simp [hwhole, fraction?_of_ends hrest, exponent?_of_ends hrest, Nat.ofDigitChars_ten_toDigits,
    hzero]

/-- **An integer is read back.** -/
theorem number?_integer (n : Int) (hrest : EndsNumber rest) :
    number? (integer n ++ rest) = some (.int n, rest) := by
  rw [integer]
  split_ifs with hn
  · have hsign : sign ('-' :: (Nat.toDigits 10 n.natAbs ++ rest)) =
        (['-'], Nat.toDigits 10 n.natAbs ++ rest) := rfl
    have habs : -(n.natAbs : Int) = n := by omega
    rw [List.cons_append, number?_of_sign hsign hrest (.inr (by omega)),
      if_neg (List.cons_ne_nil _ _), habs]
  · have habs : (n.natAbs : Int) = n := by omega
    rw [number?_of_sign (sign_toDigits n.natAbs rest) hrest (.inl rfl), if_pos rfl, habs]

/-! ## Values without parts -/

theorem exists_integer_eq_cons (n : Int) :
    ∃ c cs, integer n = c :: cs ∧ (c = '-' ∨ c.isDigit = true) := by
  rw [integer]
  split_ifs
  · exact ⟨_, _, rfl, .inl rfl⟩
  · obtain ⟨d, ds, hn, hd⟩ := exists_toDigits_eq_cons n.natAbs
    exact ⟨d, ds, hn, .inr hd⟩

/-- A minus sign or a digit starts a number. -/
theorem next?_of_number {c : Char} (hc : c = '-' ∨ c.isDigit = true) (cs : List Char) :
    next? (c :: cs) = (number? (c :: cs)).map fun p => (scalar p.1, p.2) := by
  have hne {d : Char} {ds : List Char} (hd : d ≠ '-' ∧ d.isDigit = false) : c :: cs ≠ d :: ds := by
    intro heq
    rw [(List.cons.inj heq).1] at hc
    rcases hc with hc | hc
    · exact hd.1 hc
    · rw [hd.2] at hc
      cases hc
  unfold next?
  split
  case h_11 => rfl
  all_goals
    rename_i heq
    exact absurd heq (hne (by decide))

/-- **A value without parts is read back.** -/
theorem next?_chars (hs : s.Plain) (hrest : EndsNumber rest) :
    next? (s.chars ++ rest) = some (scalar s, rest) := by
  cases s with
  | null => rfl
  | bool b => cases b <;> rfl
  | int n =>
    obtain ⟨c, cs, hcs, hc⟩ := exists_integer_eq_cons n
    have hnumber := number?_integer n hrest
    rw [chars, hcs, List.cons_append, next?_of_number hc]
    rw [hcs, List.cons_append] at hnumber
    rw [hnumber, Option.map_some]
  | decimal spelling => exact hs.elim
  | text codes =>
    obtain ⟨t, rfl⟩ := hs
    have hquoted := quoted?_codes t.toList rest
    rw [← Json.codesOf] at hquoted
    rw [chars, quoted, List.cons_append, List.cons_append, List.append_assoc, List.singleton_append,
      next?, hquoted]
    rfl

end Token

end SortingOffice
