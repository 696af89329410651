/-! JSON values as written: numbers keep their digits, and repeated keys keep their places. -/

namespace PacketPlane.Json

/-- A text that JSON spells out, absent when its escapes leave half of a surrogate pair alone. -/
abbrev Text := Option String

/-- A JSON value, with each number kept in the characters it was written in. -/
inductive Value where
  | null
  | bool (value : Bool)
  | number (lexeme : String)
  | text (value : Text)
  | list (items : List Value)
  | table (entries : List (Text × Value))
deriving Inhabited, Repr

/-- The decimal digit for a number below ten. -/
def digit (n : Nat) : Char :=
  -- The ten digits are consecutive.
  Char.ofNat ('0'.toNat + n)

/-- The decimal digits of a natural number, most significant first. -/
def decimal (n : Nat) : List Char :=
  -- The last digit is the remainder, and the digits before it spell the quotient.
  if n < 10 then [digit n] else decimal (n / 10) ++ [digit (n % 10)]

/-- The number that a run of decimal digits spells, continuing from what was read before. -/
def digitsValue (sofar : Nat) (digits : List Char) : Nat :=
  -- Each digit shifts the number read so far by one place.
  digits.foldl (fun value c => value * 10 + (c.toNat - '0'.toNat)) sofar

/-- A natural number as a JSON value. -/
def Value.nat (n : Nat) : Value :=
  -- Counts are written without sign, fraction or exponent.
  .number (String.ofList (decimal n))

/-- A string as a JSON value. -/
def Value.str (s : String) : Value :=
  -- Every string of characters can be spelled out.
  .text (some s)

/-- A table with the given keys. -/
def Value.record (entries : List (String × Value)) : Value :=
  -- Keys written by this library are always whole strings.
  .table (entries.map fun entry => (some entry.1, entry.2))

/-- The natural number that a value writes plainly, with neither sign, fraction nor exponent. -/
def Value.nat? : Value → Option Nat
  -- A lexeme of digits alone is a plain number.
  | .number lexeme =>
    if lexeme.toList.all Char.isDigit then some (digitsValue 0 lexeme.toList) else none
  | _ => none

/-- The first entry under a key. -/
def Value.get? (key : String) : Value → Option Value
  -- Only tables have keys.
  | .table entries => (entries.find? fun entry => entry.1 == some key).map (·.2)
  | _ => none

end PacketPlane.Json
