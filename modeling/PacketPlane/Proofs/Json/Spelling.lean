import Mathlib.Data.List.Basic
import Mathlib.Data.List.TakeWhile
import PacketPlane.Json.Printer
import PacketPlane.Json.Token

/-! Spelling of words: numbers, quoted texts and blanks are found again in a longer text, where they
were written. -/

namespace PacketPlane.Json

/-- A text that does not go on with a number that was written in front of it. -/
def Delimited (rest : List Char) : Prop :=
  -- A digit, a point and the letter of an exponent would go on with it.
  ∀ c, rest.head? = some c → c.isDigit = false ∧ c ≠ '.' ∧ c ≠ 'e' ∧ c ≠ 'E'

/-- The end of a text goes on with nothing. -/
theorem delimited_nil : Delimited [] := by
  -- There is no first character.
  intro c first
  cases first

/-- A character that is no part of a number decides alone. -/
theorem delimited_cons {c : Char} {rest : List Char}
    (apart : c.isDigit = false ∧ c ≠ '.' ∧ c ≠ 'e' ∧ c ≠ 'E') : Delimited (c :: rest) := by
  -- The first character is the one given.
  intro d first
  cases first
  exact apart

section Numbers

variable {cs places after rest : List Char}

/-- Digits are cut off at the same place when a text goes on that is no part of them. -/
theorem digits_append_delimited (ends : Delimited rest) (cs : List Char) :
    digits (cs ++ rest) = ((digits cs).1, (digits cs).2 ++ rest) := by
  -- By induction on the text: at its end, the rest starts with no digit.
  induction cs with
  | nil =>
    cases rest with
    | nil => rfl
    | cons c rest =>
      have plain := (ends c rfl).1
      simp [digits, plain]
  | cons c cs ih =>
    simp only [digits, Prod.mk.injEq] at ih
    by_cases digit : c.isDigit
    · simp [digits, digit, ih.1, ih.2]
    · simp [digits, digit]

/-- A text that does not start with a point has no fraction in front. -/
theorem fraction?_of_ne {c : Char} (apart : c ≠ '.') (cs : List Char) :
    fraction? (c :: cs) = some ([], c :: cs) := by
  -- Only a point would be looked behind.
  rw [fraction?]
  rintro tail ⟨⟩
  exact apart rfl

/-- A fraction is read to the same place when a text goes on that is no part of it. -/
theorem fraction?_delimited (ends : Delimited rest) (read : fraction? cs = some (places, after)) :
    fraction? (cs ++ rest) = some (places, after ++ rest) := by
  -- By cases on whether there is a point, and if so its digits end where they did.
  cases cs with
  | nil =>
    cases read
    cases rest with
    | nil => rfl
    | cons c rest => exact fraction?_of_ne (ends c rfl).2.1 rest
  | cons c cs =>
    by_cases point : c = '.'
    · subst point
      simp only [fraction?, List.cons_append, digits_append_delimited ends] at read ⊢
      split at read
      · cases read
      · rename_i some
        cases read
        rw [if_neg some]
    · rw [fraction?_of_ne point] at read
      cases read
      exact fraction?_of_ne point (cs ++ rest)

/-- The digits of an exponent are read to the same place when a text goes on that is no part of
them. -/
theorem exponentDigits?_delimited (ends : Delimited rest) {lead : List Char}
    (read : exponentDigits? lead cs = some (places, after)) :
    exponentDigits? lead (cs ++ rest) = some (places, after ++ rest) := by
  -- The digits end where they did, so there are none just if there were none.
  simp only [exponentDigits?, digits_append_delimited ends] at read ⊢
  split at read
  · cases read
  · rename_i some
    cases read
    rw [if_neg some]

/-- An exponent is read to the same place when a text goes on that is no part of it. -/
theorem exponent?_delimited (ends : Delimited rest) (read : exponent? cs = some (places, after)) :
    exponent? (cs ++ rest) = some (places, after ++ rest) := by
  cases cs with
  | nil =>
    cases read
    cases rest with
    | nil => rfl
    | cons c rest =>
      -- What follows a number does not begin an exponent.
      obtain ⟨-, -, lower, upper⟩ := ends c rfl
      simp [exponent?, lower, upper]
  | cons c cs =>
    rw [List.cons_append]
    by_cases letter : (c == 'e' || c == 'E') = true
    · simp only [exponent?, letter, if_true] at read ⊢
      cases cs with
      | nil => simp [exponentDigits?, digits] at read
      | cons sign cs =>
        -- The sign, if there is one, stands where it stood.
        rw [List.cons_append]
        split at read
        · rename_i same
          cases same
          exact exponentDigits?_delimited ends read
        · rename_i same
          cases same
          exact exponentDigits?_delimited ends read
        · rename_i plus minus
          split
          · rename_i same
            cases same
            exact absurd rfl (plus cs)
          · rename_i same
            cases same
            exact absurd rfl (minus cs)
          · exact exponentDigits?_delimited ends read
    · simp only [exponent?, letter] at read ⊢
      cases read
      rfl

/-- An unsigned number is read to the same place when a text goes on that is no part of it. -/
theorem magnitude?_delimited (ends : Delimited rest) (read : magnitude? cs = some (places, after)) :
    magnitude? (cs ++ rest) = some (places, after ++ rest) := by
  -- Each part ends where it did, from the whole part to the exponent.
  simp only [magnitude?, digits_append_delimited ends] at read ⊢
  split at read
  · cases read
  · rename_i whole
    rw [if_neg whole]
    split at read
    · cases read
    · rename_i fraction
      simp only [fraction?_delimited ends fraction]
      split at read
      · cases read
      · rename_i power
        cases read
        simp only [exponent?_delimited ends power]

/-- An unsigned number starts with a digit. -/
theorem magnitude?_head (read : magnitude? cs = some (places, after)) :
    ∃ c tail, cs = c :: tail ∧ c.isDigit = true := by
  -- A text without a digit in front is refused.
  cases cs with
  | nil => simp [magnitude?, digits] at read
  | cons c tail =>
    by_cases digit : c.isDigit = true
    · exact ⟨c, tail, rfl, digit⟩
    · simp [magnitude?, digits, digit] at read

/-- A number is read to the same place when a text goes on that is no part of it. -/
theorem number?_delimited (ends : Delimited rest) {word : Token}
    (read : number? cs = some (word, after)) : number? (cs ++ rest) = some (word, after ++ rest) := by
  -- By cases on the sign, behind which there is an unsigned number.
  rw [number?.eq_def] at read
  split at read
  · obtain ⟨⟨lexeme, left⟩, found, same⟩ := Option.map_eq_some_iff.mp read
    cases same
    rw [List.cons_append, number?, magnitude?_delimited ends found]
    rfl
  · rename_i unsigned
    obtain ⟨⟨lexeme, left⟩, found, same⟩ := Option.map_eq_some_iff.mp read
    cases same
    rw [number?, magnitude?_delimited ends found]
    · rfl
    · -- The text starts as it did, so still without a sign.
      obtain ⟨c, tail, rfl, -⟩ := magnitude?_head found
      rintro more same
      rw [List.cons_append] at same
      cases same
      exact unsigned tail rfl

/-- A number starts with its sign or with a digit. -/
theorem number?_head {word : Token} (read : number? cs = some (word, after)) :
    ∃ c tail, cs = c :: tail ∧ (c = '-' ∨ c.isDigit = true) := by
  -- By cases on the sign, behind which there is an unsigned number.
  rw [number?.eq_def] at read
  split at read
  · exact ⟨_, _, rfl, Or.inl rfl⟩
  · obtain ⟨⟨lexeme, left⟩, found, -⟩ := Option.map_eq_some_iff.mp read
    obtain ⟨c, tail, same, digit⟩ := magnitude?_head found
    exact ⟨c, tail, same, Or.inr digit⟩

/-- A text that starts with a number has it as its first word. -/
theorem token?_number {word : Token} (read : number? cs = some (word, after)) :
    token? cs = some (word, after) := by
  -- None of the other words starts with a sign or a digit.
  obtain ⟨c, tail, rfl, first⟩ := number?_head read
  rw [token?.eq_def]
  split
  case h_11 => exact read
  all_goals
    rename_i same
    cases same
    exact absurd first (by decide)

end Numbers

section Numerals

/-- A digit is found again among others. -/
theorem isDigit_digit : ∀ n < 10, (digit n).isDigit = true := by
  -- There are ten of them, and each is looked at.
  decide

/-- A digit counts for the number that it was written for. -/
theorem toNat_digit : ∀ n < 10, (digit n).toNat - '0'.toNat = n := by
  -- There are ten of them, and each is looked at.
  decide

/-- A number is written in digits alone, at least one of them. -/
theorem decimal_digits (n : Nat) :
    decimal n ≠ [] ∧ ∀ c ∈ decimal n, c.isDigit = true := by
  -- The last digit comes behind those of the quotient.
  rw [decimal]
  split
  · rename_i small
    simpa using isDigit_digit n small
  · have last := isDigit_digit (n % 10) (Nat.mod_lt n (by decide))
    have before := (decimal_digits (n / 10)).2
    refine ⟨by simp, ?_⟩
    intro c member
    rcases List.mem_append.mp member with early | late
    · exact before c early
    · rw [List.mem_singleton.mp late]
      exact last
termination_by n

/-- Digits that a number is written in spell it. -/
theorem digitsValue_decimal (n : Nat) : digitsValue 0 (decimal n) = n := by
  -- By recursion on the number without its last digit.
  rw [decimal]
  split
  · rename_i small
    simpa [digitsValue] using toNat_digit n small
  · have before := digitsValue_decimal (n / 10)
    have last := toNat_digit (n % 10) (Nat.mod_lt n (by decide))
    rw [digitsValue] at before ⊢
    rw [List.foldl_append, before, List.foldl_cons, List.foldl_nil, last]
    omega
termination_by n

/-- Only the number zero is written with a zero in front. -/
theorem decimal_head (n : Nat) :
    (decimal n).head? = some '0' → (decimal n).length = 1 := by
  rw [decimal]
  split
  · intro _
    rfl
  · rename_i large
    intro zero
    have some := (decimal_digits (n / 10)).1
    rw [List.head?_append_of_ne_nil _ some] at zero
    -- The quotient would have to be zero itself.
    have short := decimal_head (n / 10) zero
    have spelled := digitsValue_decimal (n / 10)
    obtain ⟨c, same⟩ := List.length_eq_one_iff.mp short
    rw [same] at zero spelled
    cases zero
    simp [digitsValue] at spelled
    omega
termination_by n

/-- The digits that a number is written in are found again as that number. -/
theorem number?_decimal (n : Nat) :
    number? (decimal n) = some (.number (String.ofList (decimal n)), []) := by
  -- Digits start with a zero only if it is the only one, and never with a sign.
  obtain ⟨nonempty, all⟩ := decimal_digits n
  have whole : digits (decimal n) = (decimal n, []) := by
    rw [digits, List.takeWhile_eq_self_iff.mpr all, List.dropWhile_eq_nil_iff.mpr all]
  have lead : ((decimal n).isEmpty ||
      ((decimal n).head? == some '0' && (decimal n).length != 1)) = false := by
    have head := decimal_head n
    cases zero : (decimal n).head? == some '0' with
    | false => simp [nonempty]
    | true => simp [nonempty, head (by simpa using zero)]
  rw [number?]
  · simp [magnitude?, whole, lead, fraction?, exponent?]
  · intro rest same
    have sign := all '-' (by rw [same]; exact List.mem_cons_self)
    exact absurd sign (by decide)

/-- A number that is written plainly is read again. -/
theorem nat?_nat (n : Nat) : (Value.nat n).nat? = some n := by
  -- A number written plainly is all digits, which spell it.
  have all := (decimal_digits n).2
  rw [Value.nat, Value.nat?, String.toList_ofList, if_pos (by simpa using all),
    digitsValue_decimal]

end Numerals

section Texts

/-- A hexadecimal digit has the value that it was written for. -/
theorem Hex.value?_digit : ∀ n < 16, Hex.value? (Hex.digit n) = some n := by
  -- There are sixteen of them, and each is looked at.
  decide

/-- The unit that a control character is written as is its number. -/
theorem hexUnit?_control {n : Nat} (small : n < 32) :
    hexUnit? '0' '0' (Hex.digit (n / 16)) (Hex.digit (n % 16)) = some n := by
  -- A control character is below 32, so its first two digits are zeros.
  have zero : Hex.value? '0' = some 0 := by decide
  have high := Hex.value?_digit (n / 16) (by omega)
  have low := Hex.value?_digit (n % 16) (by omega)
  simp only [hexUnit?, zero, high, low, Option.bind_eq_bind, Option.bind_some, Option.pure_def,
    Option.some.injEq]
  omega

/-- A character is written as one piece, from which it is read again. -/
theorem exists_piece (c : Char) : ∃ piece,
    (∀ sofar rest, quotedPieces sofar (escape c ++ rest) = quotedPieces (piece :: sofar) rest) ∧
      ∀ sofar rest, joinPieces sofar (piece :: rest) = joinPieces (c :: sofar) rest := by
  -- By cases on how it is escaped: by a letter, by four digits or not at all.
  rw [escape.eq_def]
  split
  case h_8 quote backslash backspace feed newline back tab =>
    split
    · rename_i control
      refine ⟨.unit c.toNat, ?_, ?_⟩
      · intro sofar rest
        simp only [List.cons_append, List.nil_append, quotedPieces, hexUnit?_control control]
      · intro sofar rest
        have low : (c.toNat < 0xd800 || 0xe000 ≤ c.toNat) = true := by
          simp
          omega
        rw [joinPieces.eq_def]
        simp only [if_pos low, Char.ofNat_toNat]
    · rename_i plain
      refine ⟨.char c, ?_, fun _ _ => rfl⟩
      intro sofar rest
      rw [List.cons_append, List.nil_append, quotedPieces, if_neg plain]
      · exact fun same => quote same
      · rintro _ _ _ _ _ same -
        exact backslash same
      · exact fun _ _ same _ => backslash same
  all_goals exact ⟨.char _, fun _ _ => rfl, fun _ _ => rfl⟩

/-- Characters are written as pieces, from which they are read again. -/
theorem exists_pieces (cs : List Char) : ∃ pieces,
    (∀ sofar rest, quotedPieces sofar (cs.flatMap escape ++ rest) =
      quotedPieces (pieces.reverse ++ sofar) rest) ∧
      ∀ sofar, joinPieces sofar pieces = some (sofar.reverse ++ cs) := by
  -- By induction on the characters, whose pieces follow each other.
  induction cs with
  | nil => exact ⟨[], fun _ _ => rfl, fun sofar => by simp [joinPieces]⟩
  | cons c cs ih =>
    obtain ⟨piece, read, join⟩ := exists_piece c
    obtain ⟨pieces, reads, joins⟩ := ih
    refine ⟨piece :: pieces, ?_, ?_⟩
    · intro sofar rest
      rw [List.flatMap_cons, List.append_assoc, read, reads]
      simp
    · intro sofar
      rw [join, joins]
      simp

/-- A quoted text is found again in front of any other text. -/
theorem token?_quote (value : String) (rest : List Char) :
    token? (quote (some value) ++ rest) = some (.text (some value), rest) := by
  -- The pieces of the text are read up to its closing quote, and join to it.
  obtain ⟨pieces, reads, joins⟩ := exists_pieces value.toList
  have read : quoted? (value.toList.flatMap escape ++ '"' :: rest) = some (some value, rest) := by
    simp [quoted?, reads, quotedPieces, joins]
  simp [quote, token?, read]

end Texts

section Tokens

variable {cs rest : List Char} {word : Token}

/-- Nothing that stands between words is the start of one. -/
theorem token?_blank {c : Char} (blank : isBlank c = true) : token? (c :: rest) = none := by
  -- There are four blanks, and no word starts with one of them.
  have four : c = ' ' ∨ c = '\t' ∨ c = '\n' ∨ c = '\x0d' := by
    simpa [isBlank, or_assoc] using blank
  rcases four with rfl | rfl | rfl | rfl
  all_goals rfl

/-- The first word of a text is listed, and reading goes on behind it. -/
theorem tokensFrom_word (read : token? cs = some (word, rest)) (sofar : List Token) :
    tokensFrom sofar cs = tokensFrom (word :: sofar) rest := by
  -- A word does not start with a blank, and is not empty, so reading goes on.
  cases cs with
  | nil => cases read
  | cons c cs =>
    have solid : isBlank c = false := by
      cases blank : isBlank c with
      | false => rfl
      | true =>
        rw [token?_blank blank] at read
        cases read
    rw [tokensFrom.eq_def]
    simp only [solid, Bool.false_eq_true, if_false]
    split
    · rename_i found
      rw [read] at found
      cases found
      rfl
    · rename_i missing
      rw [read] at missing
      cases missing

/-- Blanks in front of a text are passed over. -/
theorem tokensFrom_blanks {blanks : List Char} (blank : ∀ c ∈ blanks, isBlank c = true)
    (sofar : List Token) (rest : List Char) :
    tokensFrom sofar (blanks ++ rest) = tokensFrom sofar rest := by
  -- By induction on the blanks.
  induction blanks with
  | nil => rfl
  | cons c blanks ih =>
    rw [List.cons_append, tokensFrom, if_pos (blank c List.mem_cons_self)]
    exact ih fun d member => blank d (List.mem_cons_of_mem c member)

end Tokens

end PacketPlane.Json
