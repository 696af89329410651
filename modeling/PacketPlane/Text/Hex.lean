/-! Bytes as pairs of lower-case hexadecimal digits. -/

namespace PacketPlane.Hex

/-- The lower-case hexadecimal digit of a number below sixteen. -/
def digit (n : Nat) : Char :=
  -- The letters follow the ten digits.
  if n < 10 then Char.ofNat ('0'.toNat + n) else Char.ofNat ('a'.toNat + (n - 10))

/-- The value of a hexadecimal digit of either case. -/
def value? (c : Char) : Option Nat :=
  -- Digits come first, then the two runs of letters.
  if c.isDigit then some (c.toNat - '0'.toNat)
  else if 'a' ≤ c && c ≤ 'f' then some (c.toNat - 'a'.toNat + 10)
  else if 'A' ≤ c && c ≤ 'F' then some (c.toNat - 'A'.toNat + 10)
  else none

/-- The two digits of every byte, high half first. -/
def encode (bytes : List UInt8) : List Char :=
  -- Each byte is written on its own.
  bytes.flatMap fun byte => [digit (byte.toNat / 16), digit (byte.toNat % 16)]

/-- The bytes that pairs of digits spell, continuing from what was read before. -/
def decodeFrom (sofar : List UInt8) : List Char → Option (List UInt8)
  -- A digit without a partner is refused.
  | [] => some sofar.reverse
  | [_] => none
  | high :: low :: rest =>
    match value? high, value? low with
    | some high, some low => decodeFrom (UInt8.ofNat (high * 16 + low) :: sofar) rest
    | _, _ => none

/-- The bytes that pairs of digits spell. -/
def decode (digits : List Char) : Option (List UInt8) :=
  -- Reading starts with no byte.
  decodeFrom [] digits

/-- A number in a fixed count of digits, its low digits when it has more. -/
def fixed : Nat → Nat → List Char
  -- The last digit is the remainder.
  | 0, _ => []
  | width + 1, n => fixed width (n / 16) ++ [digit (n % 16)]

end PacketPlane.Hex
