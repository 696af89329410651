import PacketPlane.Json.Value
import PacketPlane.Text.Hex

/-! JSON tokens: the words of a text, read from left to right. -/

namespace PacketPlane.Json

/-- A word of a JSON text. -/
inductive Token where
  | openTable
  | closeTable
  | openList
  | closeList
  | comma
  | colon
  | null
  | bool (value : Bool)
  | number (lexeme : String)
  | text (value : Text)
deriving Inhabited, Repr

/-- Whether a character may stand between two words. -/
def isBlank (c : Char) : Bool :=
  -- The grammar names exactly these four.
  c == ' ' || c == '\t' || c == '\n' || c == '\r'

/-- One piece of a quoted text: a character, or a code unit given by its number. -/
inductive Piece where
  | char (c : Char)
  | unit (code : Nat)
deriving Repr

/-- The number that four hexadecimal digits spell. -/
def hexUnit? (a b c d : Char) : Option Nat := do
  -- The first digit is the most significant.
  let a ← Hex.value? a
  let b ← Hex.value? b
  let c ← Hex.value? c
  let d ← Hex.value? d
  return ((a * 16 + b) * 16 + c) * 16 + d

/-- The character that a one-letter escape stands for. -/
def escaped? : Char → Option Char
  -- The number escape is not among them, since it takes four digits.
  | '"' => some '"'
  | '\\' => some '\\'
  | '/' => some '/'
  | 'b' => some '\x08'
  | 'f' => some '\x0c'
  | 'n' => some '\n'
  | 'r' => some '\r'
  | 't' => some '\t'
  | _ => none

/-- The pieces of a quoted text up to its closing quote, and what follows the quote. -/
def quotedPieces (sofar : List Piece) : List Char → Option (List Piece × List Char)
  -- Control characters have to be escaped, and a text that never closes is refused.
  | [] => none
  | '"' :: rest => some (sofar.reverse, rest)
  | '\\' :: 'u' :: a :: b :: c :: d :: rest =>
    match hexUnit? a b c d with
    | some code => quotedPieces (.unit code :: sofar) rest
    | none => none
  | '\\' :: c :: rest =>
    match escaped? c with
    | some c => quotedPieces (.char c :: sofar) rest
    | none => none
  | c :: rest => if c.toNat < 0x20 then none else quotedPieces (.char c :: sofar) rest

/-- The characters that pieces spell, absent when half of a surrogate pair stands alone. -/
def joinPieces (sofar : List Char) : List Piece → Option (List Char)
  -- A high unit needs a low unit right after it.
  | [] => some sofar.reverse
  | .char c :: rest => joinPieces (c :: sofar) rest
  | .unit high :: rest =>
    if high < 0xd800 || 0xe000 ≤ high then joinPieces (Char.ofNat high :: sofar) rest
    else match rest with
      | .unit low :: rest =>
        if high < 0xdc00 && 0xdc00 ≤ low && low < 0xe000 then
          let code := 0x10000 + (high - 0xd800) * 0x400 + (low - 0xdc00)
          joinPieces (Char.ofNat code :: sofar) rest
        else none
      | _ => none

/-- A quoted text after its opening quote, and what follows its closing quote. -/
def quoted? (cs : List Char) : Option (Text × List Char) :=
  -- The grammar decides where the text ends before the pieces are put together.
  match quotedPieces [] cs with
  | some (pieces, rest) => some ((joinPieces [] pieces).map String.ofList, rest)
  | none => none

/-- The leading digits of a text, and what follows them. -/
def digits (cs : List Char) : List Char × List Char :=
  -- Both halves together are the text.
  (cs.takeWhile Char.isDigit, cs.dropWhile Char.isDigit)

/-- The fraction of a number, if one is there, and what follows it. -/
def fraction? : List Char → Option (List Char × List Char)
  -- A point has to be followed by a digit.
  | '.' :: rest =>
    let (places, rest) := digits rest
    if places.isEmpty then none else some ('.' :: places, rest)
  | cs => some ([], cs)

/-- The digits of an exponent after its letter and sign. -/
def exponentDigits? (lead : List Char) (cs : List Char) : Option (List Char × List Char) :=
  -- At least one digit has to follow.
  let (places, rest) := digits cs
  if places.isEmpty then none else some (lead ++ places, rest)

/-- The exponent of a number, if one is there, and what follows it. -/
def exponent? : List Char → Option (List Char × List Char)
  -- The letter may be of either case, and the sign may be left out.
  | c :: rest =>
    if c == 'e' || c == 'E' then
      match rest with
      | '+' :: rest => exponentDigits? [c, '+'] rest
      | '-' :: rest => exponentDigits? [c, '-'] rest
      | rest => exponentDigits? [c] rest
    else some ([], c :: rest)
  | [] => some ([], [])

/-- An unsigned number, and what follows it. -/
def magnitude? (cs : List Char) : Option (List Char × List Char) :=
  -- A number starts with a digit, and with a zero only when that is its whole part.
  let whole := (digits cs).1
  if whole.isEmpty || (whole.head? == some '0' && whole.length != 1) then none
  else match fraction? (digits cs).2 with
    | none => none
    | some (places, rest) =>
      match exponent? rest with
      | none => none
      | some (power, rest) => some (whole ++ places ++ power, rest)

/-- A number, and what follows it. -/
def number? : List Char → Option (Token × List Char)
  -- The sign belongs to the lexeme.
  | '-' :: rest => (magnitude? rest).map fun (n, rest) => (.number (String.ofList ('-' :: n)), rest)
  | cs => (magnitude? cs).map fun (n, rest) => (.number (String.ofList n), rest)

/-- The word that a text starts with, and what follows it. -/
def token? : List Char → Option (Token × List Char)
  -- The first character decides which kind of word it is.
  | '\x7b' :: rest => some (.openTable, rest)
  | '\x7d' :: rest => some (.closeTable, rest)
  | '[' :: rest => some (.openList, rest)
  | ']' :: rest => some (.closeList, rest)
  | ',' :: rest => some (.comma, rest)
  | ':' :: rest => some (.colon, rest)
  | '"' :: rest => (quoted? rest).map fun (value, rest) => (.text value, rest)
  | 'n' :: 'u' :: 'l' :: 'l' :: rest => some (.null, rest)
  | 't' :: 'r' :: 'u' :: 'e' :: rest => some (.bool true, rest)
  | 'f' :: 'a' :: 'l' :: 's' :: 'e' :: rest => some (.bool false, rest)
  | cs => number? cs

/-- What follows a quoted text is shorter than what it was read from. -/
theorem quotedPieces_shorter {cs rest : List Char} {pieces sofar : List Piece}
    (read : quotedPieces sofar cs = some (pieces, rest)) : rest.length < cs.length := by
  -- Every step takes at least one character, and the closing quote takes one as well.
  fun_induction quotedPieces sofar cs <;> simp_all <;> omega

/-- The digits and what follows them are the text. -/
theorem digits_append (cs : List Char) : (digits cs).1 ++ (digits cs).2 = cs := by
  -- The two halves are cut at the same place.
  simp [digits, List.takeWhile_append_dropWhile]

/-- A fraction and what follows it are the text it was read from. -/
theorem fraction?_append {cs places rest : List Char} (read : fraction? cs = some (places, rest)) :
    places ++ rest = cs := by
  -- The digits after the point are cut off the front of the text after it.
  have cut := digits_append
  unfold fraction? at read
  split at read <;> grind

/-- The digits of an exponent and what follows them are the text they were read from. -/
theorem exponentDigits?_append {lead cs power rest : List Char}
    (read : exponentDigits? lead cs = some (power, rest)) : power ++ rest = lead ++ cs := by
  -- The lead stays in front of the digits.
  have cut := digits_append cs
  unfold exponentDigits? at read
  grind

/-- An exponent and what follows it are the text it was read from. -/
theorem exponent?_append {cs power rest : List Char} (read : exponent? cs = some (power, rest)) :
    power ++ rest = cs := by
  -- The letter and the sign are put back in front of the digits.
  unfold exponent? at read
  split at read
  · split at read
    · split at read <;> simpa using exponentDigits?_append read
    · grind
  · grind

/-- An unsigned number and what follows it are the text it was read from. -/
theorem magnitude?_append {cs lexeme rest : List Char}
    (read : magnitude? cs = some (lexeme, rest)) : lexeme ++ rest = cs ∧ lexeme ≠ [] := by
  -- Each part is cut off the front of what the part before it left, and the first is not empty.
  have whole := digits_append cs
  unfold magnitude? at read
  simp only at read
  split at read
  · cases read
  split at read
  · cases read
  next fractionRead =>
    split at read
    · cases read
    next exponentRead =>
      simp only [Option.some.injEq, Prod.mk.injEq] at read
      obtain ⟨rfl, rfl⟩ := read
      constructor
      · simp only [List.append_assoc, exponent?_append exponentRead,
          fraction?_append fractionRead, whole]
      · intro none
        simp_all

/-- What follows a number is shorter than what it was read from. -/
theorem number?_shorter {cs rest : List Char} {word : Token}
    (read : number? cs = some (word, rest)) : rest.length < cs.length := by
  -- The lexeme holds at least one character.
  unfold number? at read
  split at read
  · simp only [Option.map_eq_some_iff] at read
    obtain ⟨⟨lexeme, after⟩, found, same⟩ := read
    have cut := magnitude?_append found
    grind
  · simp only [Option.map_eq_some_iff] at read
    obtain ⟨⟨lexeme, after⟩, found, same⟩ := read
    have cut := magnitude?_append found
    have : 0 < lexeme.length := List.length_pos_iff.mpr cut.2
    grind

/-- What follows a word is shorter than what it was read from. -/
theorem token?_shorter {cs rest : List Char} {word : Token}
    (read : token? cs = some (word, rest)) : rest.length < cs.length := by
  -- Fixed words lose their characters, and the others have their own lemmas.
  unfold token? at read
  split at read
  case h_7 after =>
    simp only [Option.map_eq_some_iff] at read
    obtain ⟨⟨value, left⟩, found, same⟩ := read
    unfold quoted? at found
    split at found
    · have := quotedPieces_shorter ‹_›
      grind
    · cases found
  case h_11 => exact number?_shorter read
  all_goals grind

/-- The words of a text, read to its end. -/
def tokensFrom (sofar : List Token) (cs : List Char) : Option (List Token) :=
  -- Blanks are skipped, and each word is followed by a shorter text.
  match cs with
  | [] => some sofar.reverse
  | c :: rest =>
    if isBlank c then tokensFrom sofar rest
    else match _read : token? (c :: rest) with
      | some (word, after) => tokensFrom (word :: sofar) after
      | none => none
termination_by cs.length
decreasing_by
  · simp
  · exact token?_shorter _read

/-- The words of a text. -/
def tokens? (text : String) : Option (List Token) :=
  -- Reading starts with no word.
  tokensFrom [] text.toList

end PacketPlane.Json
