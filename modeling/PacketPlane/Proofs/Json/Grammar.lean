import PacketPlane.Proofs.Json.Words

/-! Grammar of texts: every way to write a value, with any escapes and with any blanks between its words,
and each is read as that value. -/

namespace PacketPlane.Json

section Numbers

variable {cs rest : List Char}

/-- Digits, at least one of them. -/
def IsDigits (cs : List Char) : Prop :=
  cs ≠ [] ∧ ∀ c ∈ cs, c.isDigit = true

/-- The whole part of a number. -/
def IsWhole (cs : List Char) : Prop :=
  -- A zero in front stands alone.
  IsDigits cs ∧ (cs.head? = some '0' → cs = ['0'])

/-- The fraction of a number, which may be left out. -/
def IsFraction (cs : List Char) : Prop :=
  cs = [] ∨ ∃ places, cs = '.' :: places ∧ IsDigits places

/-- The exponent of a number, which may be left out, and so may its sign. -/
def IsExponent (cs : List Char) : Prop :=
  cs = [] ∨ ∃ letter sign places, cs = letter :: (sign ++ places) ∧ (letter = 'e' ∨ letter = 'E') ∧
    (sign = [] ∨ sign = ['+'] ∨ sign = ['-']) ∧ IsDigits places

/-- A number of any size and precision. -/
def IsNumber (cs : List Char) : Prop :=
  ∃ sign whole fraction exponent, cs = sign ++ (whole ++ (fraction ++ exponent)) ∧
    (sign = [] ∨ sign = ['-']) ∧ IsWhole whole ∧ IsFraction fraction ∧ IsExponent exponent

/-- Digits are cut off in front of anything else. -/
theorem digits_of_isDigits (all : IsDigits cs)
    (ends : ∀ c, rest.head? = some c → c.isDigit = false) : digits (cs ++ rest) = (cs, rest) := by
  -- The rest starts with no digit, so the digits end where it starts.
  have none : rest.takeWhile Char.isDigit = [] ∧ rest.dropWhile Char.isDigit = rest := by
    cases rest with
    | nil => exact ⟨rfl, rfl⟩
    | cons c rest => simp [ends c rfl]
  rw [digits, List.takeWhile_append_of_pos all.2, List.dropWhile_append_of_pos all.2, none.1, none.2,
    List.append_nil]

/-- An exponent that is not left out starts with its letter. -/
theorem IsExponent.head (exponent : IsExponent cs) {c : Char} (first : cs.head? = some c) :
    c = 'e' ∨ c = 'E' := by
  -- An exponent is left out or starts with its letter.
  obtain rfl | ⟨letter, sign, places, rfl, letters, -, -⟩ := exponent
  · cases first
  · cases first
    exact letters

/-- What follows the whole part of a number starts with no digit. -/
theorem IsFraction.apart (fraction : IsFraction cs) (exponent : IsExponent rest) {c : Char}
    (first : (cs ++ rest).head? = some c) : c.isDigit = false := by
  -- A fraction is left out, which leaves the exponent, or starts with its point.
  obtain rfl | ⟨places, rfl, -⟩ := fraction
  · rcases exponent.head first with rfl | rfl <;> decide
  · cases first
    decide

/-- A fraction is read in front of an exponent. -/
theorem fraction?_of_isFraction (fraction : IsFraction cs) (exponent : IsExponent rest) :
    fraction? (cs ++ rest) = some (cs, rest) := by
  -- By cases on whether it is left out, and then the exponent must not look like a fraction.
  obtain rfl | ⟨places, rfl, all⟩ := fraction
  · cases rest with
    | nil => rfl
    | cons c rest =>
      apply fraction?_of_ne
      rcases exponent.head rfl with rfl | rfl <;> decide
  · have ends : ∀ c, rest.head? = some c → c.isDigit = false :=
      fun c first => IsFraction.apart (.inl rfl) exponent first
    simp [fraction?, digits_of_isDigits all ends, all.1]

/-- An exponent is read to its end. -/
theorem exponent?_of_isExponent (exponent : IsExponent cs) : exponent? cs = some (cs, []) := by
  -- By cases on the sign, since its digits follow the letter or the sign.
  obtain rfl | ⟨letter, sign, places, rfl, letters, signs, all⟩ := exponent
  · rfl
  · have whole : digits places = (places, []) := by
      have cut : digits (places ++ []) = (places, []) :=
        digits_of_isDigits all fun c first => by cases first
      rwa [List.append_nil] at cut
    have letters' : (letter == 'e' || letter == 'E') = true := by simpa using letters
    obtain ⟨some, digit⟩ := all
    rcases signs with rfl | rfl | rfl
    · -- A digit is no sign.
      cases places with
      | nil => exact absurd rfl some
      | cons c places =>
        have first := digit c List.mem_cons_self
        have plus : c ≠ '+' := fun same => by rw [same] at first; exact absurd first (by decide)
        have minus : c ≠ '-' := fun same => by rw [same] at first; exact absurd first (by decide)
        simp [exponent?, letters', exponentDigits?, whole, plus, minus]
    · simp [exponent?, letters', exponentDigits?, whole, some]
    · simp [exponent?, letters', exponentDigits?, whole, some]

/-- A number is read to its end. -/
theorem number?_of_isNumber (number : IsNumber cs) :
    number? cs = some (.number (String.ofList cs), []) := by
  -- The parts are read one after another, each up to where the next one starts.
  obtain ⟨sign, whole, fraction, exponent, rfl, signs, ⟨all, zero⟩, fractions, exponents⟩ := number
  have read : magnitude? (whole ++ (fraction ++ exponent)) =
      some (whole ++ (fraction ++ exponent), []) := by
    have cut := digits_of_isDigits all fun c => fractions.apart exponents
    have lead : (whole.isEmpty || (whole.head? == some '0' && whole.length != 1)) = false := by
      by_cases first : whole.head? = some '0'
      · simp [zero first]
      · simp [all.1, first]
    simp [magnitude?, cut, lead, fraction?_of_isFraction fractions exponents,
      exponent?_of_isExponent exponents]
  rcases signs with rfl | rfl
  · obtain ⟨c, tail, same, digit⟩ := magnitude?_head read
    rw [List.nil_append, number?, read]
    · rfl
    · rintro more minus
      rw [same] at minus
      cases minus
      exact absurd digit (by decide)
  · simp only [List.cons_append, List.nil_append, number?, read]
    rfl

end Numbers

section Texts

variable {cs : List Char}

/-- The letters of the short escapes, each with the character that it stands for. -/
def shortEscapes : List (Char × Char) :=
  [('"', '"'), ('\\', '\\'), ('/', '/'), ('b', '\x08'), ('f', '\x0c'), ('n', '\n'), ('r', '\x0d'),
    ('t', '\t')]

/-- A hexadecimal digit of a number below sixteen, of either case. -/
def IsHexDigit (n : Nat) (c : Char) : Prop :=
  n < 16 ∧ (c = Hex.digit n ∨ c = (Hex.digit n).toUpper)

/-- The ways to write a piece of a text: as itself unless it has to be escaped, with a short escape, or
as a code unit in four digits. -/
inductive Piece.Spelling : Piece → List Char → Prop
  | plain {c : Char} (visible : 0x20 ≤ c.toNat) (unquoted : c ≠ '"') (unescaped : c ≠ '\\') :
    Spelling (.char c) [c]
  | short {letter c : Char} (listed : (letter, c) ∈ shortEscapes) : Spelling (.char c) ['\\', letter]
  | unit {a b c d : Nat} {w x y z : Char} (first : IsHexDigit a w) (second : IsHexDigit b x)
    (third : IsHexDigit c y) (fourth : IsHexDigit d z) :
    Spelling (.unit (((a * 16 + b) * 16 + c) * 16 + d)) ['\\', 'u', w, x, y, z]

/-- The code units of a character: one, or a pair of surrogates when it takes more than 16 bits. -/
def units (c : Char) : List Nat :=
  -- The high half comes first.
  if c.toNat < 0x10000 then [c.toNat]
  else [0xd800 + (c.toNat - 0x10000) / 0x400, 0xdc00 + (c.toNat - 0x10000) % 0x400]

/-- The code units of a piece. -/
def Piece.units : Piece → List Nat
  | .char c => Json.units c
  | .unit code => [code]

/-- What pieces write: the string that has their code units, and none when no string has. -/
def Joins (pieces : List Piece) (value : Text) : Prop :=
  ∀ s : String, value = some s ↔ s.toList.flatMap units = pieces.flatMap Piece.units

/-- A hexadecimal digit is read in either case. -/
theorem value?_of_isHexDigit {n : Nat} {c : Char} (digit : IsHexDigit n c) :
    Hex.value? c = some n := by
  -- There are sixteen digits in two cases, and each of them is looked at.
  have both : ∀ n < 16, Hex.value? (Hex.digit n) = some n ∧
      Hex.value? (Hex.digit n).toUpper = some n := by decide
  obtain ⟨small, rfl | rfl⟩ := digit
  · exact (both n small).1
  · exact (both n small).2

/-- A short escape is read as the character that it stands for, and takes no number. -/
theorem escaped?_of_listed : ∀ entry ∈ shortEscapes,
    escaped? entry.1 = some entry.2 ∧ entry.1 ≠ 'u' := by
  -- There are eight of them, and each is looked at.
  decide

/-- A piece is read where it is written, and the text goes on behind it. -/
theorem quotedPieces_spelling {piece : Piece} (spelling : piece.Spelling cs) (sofar : List Piece)
    (rest : List Char) :
    quotedPieces sofar (cs ++ rest) = quotedPieces (piece :: sofar) rest := by
  -- By cases on the spelling: a plain character, a short escape, or four digits.
  cases spelling with
  | plain visible unquoted unescaped =>
    rename_i c
    rw [List.cons_append, List.nil_append, quotedPieces, if_neg (Nat.not_lt.mpr visible)]
    · exact fun same => unquoted same
    · rintro _ _ _ _ _ same -
      exact unescaped same
    · exact fun _ _ same _ => unescaped same
  | short listed =>
    obtain ⟨escaped, apart⟩ := escaped?_of_listed _ listed
    simp only [List.cons_append, List.nil_append]
    rw [quotedPieces]
    · simp only [escaped]
    · exact fun _ _ _ _ _ same _ => apart same
  | unit first second third fourth =>
    simp only [List.cons_append, List.nil_append, quotedPieces, hexUnit?,
      value?_of_isHexDigit first, value?_of_isHexDigit second, value?_of_isHexDigit third,
      value?_of_isHexDigit fourth, Option.bind_eq_bind, Option.bind_some, Option.pure_def]

/-- Pieces are read one after another. -/
theorem quotedPieces_spellings {pieces : List Piece} {parts : List (List Char)}
    (each : List.Forall₂ Piece.Spelling pieces parts) (sofar : List Piece) (rest : List Char) :
    quotedPieces sofar (parts.flatten ++ rest) = quotedPieces (pieces.reverse ++ sofar) rest := by
  -- By induction on the pieces, for whatever was read before.
  induction each generalizing sofar with
  | nil => rfl
  | cons spelling each ih =>
    rw [List.flatten_cons, List.append_assoc, quotedPieces_spelling spelling, ih,
      List.reverse_cons, List.append_assoc]
    rfl

/-- A character is never one half of a surrogate pair. -/
theorem toNat_apart (c : Char) : c.toNat < 0xd800 ∨ 0xe000 ≤ c.toNat ∧ c.toNat < 0x110000 := by
  -- Validity of a character leaves the surrogates out.
  rcases c.valid with low | ⟨above, below⟩
  · exact .inl low
  · exact .inr ⟨above, below⟩

/-- Code units are cut into characters at the same places. -/
theorem units_append {c d : Char} {us vs : List Nat} (same : units c ++ us = units d ++ vs) :
    c = d ∧ us = vs := by
  -- One unit and two are told apart by the first, which is a surrogate only if there are two.
  have left := toNat_apart c
  have right := toNat_apart d
  have cut : c.toNat = d.toNat ∧ us = vs := by
    simp only [units] at same
    split at same <;> split at same <;> simp only [List.cons_append, List.nil_append,
      List.cons.injEq] at same <;> grind
  exact ⟨Char.toNat_inj.mp cut.1, cut.2⟩

/-- A string goes on with the characters whose code units go on. -/
theorem exists_flatMap_units (c : Char) (us : List Nat) (P : List Char → Prop) :
    (∃ cs, P cs ∧ cs.flatMap units = units c ++ us) ↔ ∃ cs, P (c :: cs) ∧ cs.flatMap units = us := by
  -- A string without characters has no units, and otherwise its first character is the one.
  constructor
  · rintro ⟨cs, holds, same⟩
    cases cs with
    | nil =>
      simp only [units] at same
      split at same <;> cases same
    | cons d cs =>
      rw [List.flatMap_cons] at same
      obtain ⟨rfl, rest⟩ := units_append same
      exact ⟨cs, holds, rest⟩
  · rintro ⟨cs, holds, rfl⟩
    exact ⟨c :: cs, holds, List.flatMap_cons⟩

/-- Strings with the same code units are the same. -/
theorem flatMap_units_inj {cs ds : List Char} (same : cs.flatMap units = ds.flatMap units) :
    cs = ds := by
  -- By induction on one string, whose first character is cut off the units of the other.
  induction ds generalizing cs with
  | nil =>
    cases cs with
    | nil => rfl
    | cons c cs =>
      rw [List.flatMap_cons, units] at same
      split at same <;> cases same
  | cons d ds ih =>
    obtain ⟨cs', rfl, rest⟩ := (exists_flatMap_units d _ (cs = ·)).mp ⟨cs, rfl, same⟩
    rw [ih rest]

/-- Pieces write a string that has their code units. -/
theorem joins_some {pieces : List Piece} {s : String}
    (same : s.toList.flatMap units = pieces.flatMap Piece.units) : Joins pieces (some s) := by
  -- Equal units mean equal strings.
  intro other
  constructor
  · rintro ⟨⟩
    exact same
  · intro equal
    rw [String.toList_inj.mp (flatMap_units_inj (same.trans equal.symm))]

/-- A character whose code units come first is put in front of what the pieces behind it write. -/
theorem joins_cons {sofar out : List Char} {c : Char} {us : List Nat} {read : Option (List Char)}
    (rest : read = some out ↔ ∃ cs, out = (c :: sofar).reverse ++ cs ∧ cs.flatMap units = us) :
    read = some out ↔ ∃ cs, out = sofar.reverse ++ cs ∧ cs.flatMap units = units c ++ us := by
  -- Reading collects characters back to front, so the next one goes to the front of what was
  -- collected.
  rw [exists_flatMap_units c us fun cs => out = sofar.reverse ++ cs, rest]
  simp only [List.reverse_cons, List.append_assoc, List.singleton_append]

/-- A character keeps the number that it was made of. -/
theorem toNat_ofNat_of_isValidChar {n : Nat} (valid : n.isValidChar) : (Char.ofNat n).toNat = n := by
  -- Only an invalid number would be replaced.
  rw [Char.ofNat, dif_pos valid]
  rfl

/-- A unit below the surrogates or above them is the only one of a character. -/
theorem units_single {code : Nat} (small : code < 0x10000)
    (apart : code < 0xd800 ∨ 0xe000 ≤ code) : units (Char.ofNat code) = [code] := by
  -- Such a number is valid, and is below the first that takes two units.
  have valid : code.isValidChar := by
    rcases apart with low | high
    · exact .inl low
    · exact .inr ⟨high, by omega⟩
  rw [units, toNat_ofNat_of_isValidChar valid, if_pos small]

/-- A pair of surrogates are the units of one character. -/
theorem units_pair {high low : Nat} (first : 0xd800 ≤ high ∧ high < 0xdc00)
    (second : 0xdc00 ≤ low ∧ low < 0xe000) :
    units (Char.ofNat (0x10000 + (high - 0xd800) * 0x400 + (low - 0xdc00))) = [high, low] := by
  -- The number is valid, and is at least the first that takes two units.
  have valid : (0x10000 + (high - 0xd800) * 0x400 + (low - 0xdc00)).isValidChar :=
    .inr ⟨by omega, by omega⟩
  rw [units, toNat_ofNat_of_isValidChar valid, if_neg (by omega)]
  simp only [List.cons.injEq, and_true]
  omega

/-- Half of a surrogate pair that stands alone starts no string. -/
theorem flatMap_units_ne {high : Nat} (surrogate : 0xd800 ≤ high ∧ high < 0xe000) {us : List Nat}
    (alone : ∀ low rest, us = low :: rest → ¬ (high < 0xdc00 ∧ 0xdc00 ≤ low ∧ low < 0xe000))
    (cs : List Char) : cs.flatMap units ≠ high :: us := by
  -- No character has such a unit alone, and one with two of them goes on with the other half.
  intro same
  cases cs with
  | nil => cases same
  | cons c cs =>
    have valid := toNat_apart c
    rw [List.flatMap_cons, units] at same
    split at same
    · simp only [List.cons_append, List.cons.injEq] at same
      omega
    · simp only [List.cons_append, List.nil_append, List.cons.injEq] at same
      exact alone _ _ same.2.symm (by omega)

/-- Pieces are put together to the string that has their code units. -/
theorem joinPieces_iff {pieces : List Piece}
    (small : ∀ code, .unit code ∈ pieces → code < 0x10000) (sofar out : List Char) :
    joinPieces sofar pieces = some out ↔
      ∃ cs, out = sofar.reverse ++ cs ∧ cs.flatMap units = pieces.flatMap Piece.units := by
  fun_induction joinPieces sofar pieces with
  | case1 sofar =>
    constructor
    · rintro ⟨⟩
      exact ⟨[], (List.append_nil _).symm, rfl⟩
    · rintro ⟨cs, rfl, same⟩
      -- Without units there are no characters.
      have none : cs = [] := flatMap_units_inj same
      rw [none, List.append_nil]
  | case2 sofar c rest ih =>
    exact joins_cons (ih fun code member => small code (List.mem_cons_of_mem _ member))
  | case3 sofar high rest apart ih =>
    -- A unit apart from the surrogates stands for a character by itself.
    have single : units (Char.ofNat high) = [high] :=
      units_single (small high List.mem_cons_self) (by simpa using apart)
    rw [List.flatMap_cons, Piece.units, ← single]
    exact joins_cons (ih fun code member => small code (List.mem_cons_of_mem _ member))
  | case4 sofar high surrogate low rest paired code ih =>
    -- A high unit and a low one stand for one character.
    have pair : units (Char.ofNat code) = [high, low] :=
      units_pair (by simp at surrogate paired; omega) (by simp at paired; omega)
    rw [List.flatMap_cons, List.flatMap_cons, Piece.units, Piece.units, ← List.append_assoc,
      List.singleton_append, ← pair]
    exact joins_cons (ih fun code member =>
      small code (List.mem_cons_of_mem _ (List.mem_cons_of_mem _ member)))
  | case5 sofar high surrogate low rest unpaired =>
    -- A high unit without a low one is not the beginning of any character.
    refine iff_of_false (Option.some_ne_none out).symm ?_
    rintro ⟨cs, -, same⟩
    rw [List.flatMap_cons, Piece.units, List.singleton_append] at same
    refine absurd same (flatMap_units_ne (by simpa using surrogate) ?_ cs)
    rintro _ _ ⟨⟩
    simpa [and_assoc] using unpaired
  | case6 sofar high rest surrogate unpaired =>
    refine iff_of_false (Option.some_ne_none out).symm ?_
    rintro ⟨cs, -, same⟩
    rw [List.flatMap_cons, Piece.units, List.singleton_append] at same
    refine absurd same (flatMap_units_ne (by simpa using surrogate) ?_ cs)
    -- What comes next is a whole character, if anything does.
    intro low us first
    cases rest with
    | nil => cases first
    | cons piece rest =>
      cases piece with
      | unit code => exact absurd rfl (unpaired code rest)
      | char c =>
        have valid := toNat_apart c
        rw [List.flatMap_cons, Piece.units, Json.units] at first
        split at first <;> (simp only [List.cons_append, List.cons.injEq] at first; omega)

/-- A unit that is written in four digits takes 16 bits. -/
theorem Piece.Spelling.small {code : Nat} (spelling : (Piece.unit code).Spelling cs) :
    code < 0x10000 := by
  -- Four digits are each below sixteen.
  cases spelling with
  | unit first second third fourth =>
    have := first.1
    have := second.1
    have := third.1
    have := fourth.1
    omega

/-- Units that are written in four digits take 16 bits. -/
theorem small_of_spellings {pieces : List Piece} {parts : List (List Char)}
    (each : List.Forall₂ Piece.Spelling pieces parts) :
    ∀ code, .unit code ∈ pieces → code < 0x10000 := by
  -- By induction on the pieces.
  induction each with
  | nil => exact fun _ => (nomatch ·)
  | cons spelling each ih =>
    intro code member
    rcases List.mem_cons.mp member with rfl | member
    · exact spelling.small
    · exact ih code member

/-- A text is read from its pieces, whether or not they write a string. -/
theorem quoted?_spellings {pieces : List Piece} {parts : List (List Char)} {value : Text}
    (each : List.Forall₂ Piece.Spelling pieces parts) (joins : Joins pieces value)
    (rest : List Char) : quoted? (parts.flatten ++ '"' :: rest) = some (value, rest) := by
  -- What the pieces join to is the string that has their units, if there is one.
  have whole : (joinPieces [] pieces).map String.ofList = value := by
    apply Option.ext
    intro s
    rw [joins s, Option.map_eq_some_iff]
    constructor
    · rintro ⟨out, read, rfl⟩
      obtain ⟨cs, rfl, same⟩ := (joinPieces_iff (small_of_spellings each) [] out).mp read
      rw [String.toList_ofList]
      exact same
    · intro same
      have read := (joinPieces_iff (small_of_spellings each) [] _).mpr ⟨s.toList, rfl, same⟩
      exact ⟨s.toList, read, String.ofList_toList⟩
  rw [quoted?, quotedPieces_spellings each]
  simp [quotedPieces, whole]

end Texts

section Words

variable {cs rest : List Char} {word : Token} {words : List Token}

/-- The ways to write a word. -/
inductive Token.Spelling : Token → List Char → Prop
  | openTable : Spelling .openTable ['\x7b']
  | closeTable : Spelling .closeTable ['\x7d']
  | openList : Spelling .openList ['[']
  | closeList : Spelling .closeList [']']
  | comma : Spelling .comma [',']
  | colon : Spelling .colon [':']
  | null : Spelling .null ['n', 'u', 'l', 'l']
  | yes : Spelling (.bool true) ['t', 'r', 'u', 'e']
  | no : Spelling (.bool false) ['f', 'a', 'l', 's', 'e']
  | number {cs : List Char} (number : IsNumber cs) : Spelling (.number (String.ofList cs)) cs
  | text {pieces : List Piece} {parts : List (List Char)} {value : Text}
    (each : List.Forall₂ Piece.Spelling pieces parts) (joins : Joins pieces value) :
    Spelling (.text value) ('"' :: (parts.flatten ++ ['"']))

/-- Words with any blanks before, between and behind them. -/
inductive Spaced : List Token → List Char → Prop
  | done : Spaced [] []
  | blank {c : Char} {words : List Token} {cs : List Char} (blank : c ∈ [' ', '\t', '\n', '\x0d'])
    (spaced : Spaced words cs) : Spaced words (c :: cs)
  | word {word : Token} {words : List Token} {cs rest : List Char} (spelling : word.Spelling cs)
    (spaced : Spaced words rest) : Spaced (word :: words) (cs ++ rest)

/-- A text that writes a value. -/
def Value.WrittenAs (v : Value) (text : String) : Prop :=
  Spaced v.words text.toList

/-- Whether a word is a number. -/
def Token.isNumber : Token → Bool
  | .number _ => true
  | _ => false

/-- Words among which no number comes right after another. -/
def Apart : List Token → Prop
  | [] => True
  | word :: rest => (word.isNumber → ∀ next, rest.head? = some next → next.isNumber = false) ∧ Apart rest

/-- A word that is no number goes on with none in front of it. -/
theorem Token.Spelling.delimited (spelling : word.Spelling cs) (other : word.isNumber = false)
    (rest : List Char) : Delimited (cs ++ rest) := by
  -- By cases on the word, whose first character tells it from a number.
  cases spelling with
  | number number => cases other
  | _ => exact delimited_cons (by decide)

/-- A word is read where it is written. -/
theorem token?_spelling (spelling : word.Spelling cs) (ends : word.isNumber → Delimited rest) :
    token? (cs ++ rest) = some (word, rest) := by
  -- By cases on the word: a number needs its end to be seen, and all others end by themselves.
  cases spelling with
  | number number =>
    exact token?_number (number?_delimited (ends rfl) (number?_of_isNumber number))
  | text each joins =>
    have read := quoted?_spellings each joins rest
    simp only [List.cons_append, List.append_assoc, List.nil_append, token?, read, Option.map_some]
  | _ => rfl

/-- Words that do not start with a number go on with none in front of them. -/
theorem Spaced.delimited (spaced : Spaced words cs)
    (other : ∀ next, words.head? = some next → next.isNumber = false) : Delimited cs := by
  -- What comes next is the end, a blank or another word.
  cases spaced with
  | done => exact delimited_nil
  | blank blank spaced =>
    apply delimited_cons
    revert blank
    simp only [List.mem_cons, List.not_mem_nil, or_false]
    rintro (rfl | rfl | rfl | rfl) <;> decide
  | word spelling spaced => exact spelling.delimited (other _ rfl) _

/-- Words are read where they are written, whatever blanks are between them. -/
theorem tokensFrom_spaced (spaced : Spaced words cs) (apart : Apart words) (sofar : List Token) :
    tokensFrom sofar cs = some (sofar.reverse ++ words) := by
  -- By induction on how the words are written, for whatever was read before.
  induction spaced generalizing sofar with
  | done => rw [tokensFrom, List.append_nil]
  | @blank c words cs blank spaced ih =>
    have blanks : ∀ d ∈ [c], isBlank d = true := by
      intro d member
      rw [List.mem_singleton.mp member]
      revert blank
      simp only [List.mem_cons, List.not_mem_nil, or_false]
      rintro (rfl | rfl | rfl | rfl) <;> rfl
    exact (tokensFrom_blanks blanks sofar cs).trans (ih apart sofar)
  | word spelling spaced ih =>
    have read := token?_spelling spelling fun number => spaced.delimited (apart.1 number)
    rw [tokensFrom_word read, ih apart.2, List.reverse_cons, List.append_assoc]
    rfl

end Words

mutual
/-- In the words of a value, a bracket, a comma or a colon comes between numbers. -/
theorem apart_words (v : Value) {rest : List Token} (apart : Apart rest)
    (other : ∀ next, rest.head? = some next → next.isNumber = false) : Apart (v.words ++ rest) := by
  -- By recursion on the value, along with the two lemmas on items and entries below.
  cases v with
  | null | bool | text => exact ⟨Bool.noConfusion, apart⟩
  | number lexeme => exact ⟨fun _ => other, apart⟩
  | list items =>
    cases items with
    | nil => exact ⟨Bool.noConfusion, Bool.noConfusion, apart⟩
    | cons item items =>
      have close : Apart (.closeList :: rest) := ⟨Bool.noConfusion, apart⟩
      obtain ⟨later, next⟩ := apart_itemsWords items close (by rintro _ ⟨⟩; rfl)
      have inner := apart_words item later next
      simp only [Value.words, List.cons_append, List.append_assoc, List.nil_append]
      exact ⟨Bool.noConfusion, inner⟩
  | table entries =>
    cases entries with
    | nil => exact ⟨Bool.noConfusion, Bool.noConfusion, apart⟩
    | cons entry entries =>
      obtain ⟨key, value⟩ := entry
      have close : Apart (.closeTable :: rest) := ⟨Bool.noConfusion, apart⟩
      obtain ⟨later, next⟩ := apart_entriesWords entries close (by rintro _ ⟨⟩; rfl)
      have inner := apart_words value later next
      simp only [Value.words, List.cons_append, List.append_assoc, List.nil_append]
      exact ⟨Bool.noConfusion, Bool.noConfusion, Bool.noConfusion, inner⟩

/-- A comma comes before each further item. -/
theorem apart_itemsWords (items : List Value) {rest : List Token} (apart : Apart rest)
    (other : ∀ next, rest.head? = some next → next.isNumber = false) :
    Apart (itemsWords items ++ rest) ∧
      ∀ next, (itemsWords items ++ rest).head? = some next → next.isNumber = false := by
  -- By recursion on the items, of which each further one has its comma in front.
  cases items with
  | nil => exact ⟨apart, other⟩
  | cons item items =>
    obtain ⟨later, next⟩ := apart_itemsWords items apart other
    have inner := apart_words item later next
    simp only [itemsWords, List.cons_append, List.append_assoc]
    exact ⟨⟨Bool.noConfusion, inner⟩, by rintro _ ⟨⟩; rfl⟩

/-- A comma comes before each further entry. -/
theorem apart_entriesWords (entries : List (Text × Value)) {rest : List Token} (apart : Apart rest)
    (other : ∀ next, rest.head? = some next → next.isNumber = false) :
    Apart (entriesWords entries ++ rest) ∧
      ∀ next, (entriesWords entries ++ rest).head? = some next → next.isNumber = false := by
  -- By recursion on the entries, of which each further one has its comma in front.
  cases entries with
  | nil => exact ⟨apart, other⟩
  | cons entry entries =>
    obtain ⟨key, value⟩ := entry
    obtain ⟨later, next⟩ := apart_entriesWords entries apart other
    have inner := apart_words value later next
    simp only [entriesWords, List.cons_append, List.append_assoc]
    exact ⟨⟨Bool.noConfusion, Bool.noConfusion, Bool.noConfusion, inner⟩, by rintro _ ⟨⟩; rfl⟩
end

/-- A value is read from any text that writes it. -/
theorem read?_of_writtenAs {v : Value} {text : String} (written : v.WrittenAs text) :
    read? text = some v := by
  -- The text is cut into the words of the value, which are then read as the value.
  have apart : Apart (v.words ++ []) := apart_words v trivial (by rintro _ ⟨⟩)
  have read := advanceAll_words v [] []
  rw [List.append_nil] at apart read
  have found : tokens? text = some v.words := tokensFrom_spaced written apart []
  simp only [read?, found, read]
  rfl

end PacketPlane.Json
