/-! Plain numerals as a person writes them: an optional plus sign and decimal digits. -/

namespace PacketPlane

/-- Why a numeral is not acceptable. -/
inductive NumeralFault where
  | empty
  | invalidDigit
  | tooLarge
deriving DecidableEq, Repr, Inhabited

/-- The words for a numeral fault. -/
def NumeralFault.message : NumeralFault → String
  | .empty => "cannot parse integer from empty string"
  | .invalidDigit => "invalid digit found in string"
  | .tooLarge => "number too large to fit in target type"

/-- The number that digits spell below a bound, continuing from what was read before. -/
def readDigits (bound sofar : Nat) : List Char → Except NumeralFault Nat
  -- The first character that is wrong in either way decides.
  | [] => .ok sofar
  | c :: rest =>
    if !c.isDigit then .error .invalidDigit
    else
      let value := sofar * 10 + (c.toNat - '0'.toNat)
      if value ≥ bound then .error .tooLarge else readDigits bound value rest

/-- The number below a bound that a text writes. -/
def readNumeral (bound : Nat) (text : String) : Except NumeralFault Nat :=
  -- A sign alone is no number, and a minus sign is no digit.
  match text.toList with
  | [] => .error .empty
  | ['+'] => .error .invalidDigit
  | '+' :: rest => readDigits bound 0 rest
  | cs => readDigits bound 0 cs

end PacketPlane
