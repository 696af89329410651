import PacketPlane.Text.Hex

/-! Descriptions for diagnosis: quoted texts, optional values and named fields. -/

namespace PacketPlane.Shown

/-- Code points outside the control characters that a reader could not see, as ranges. -/
def unseen : List (Nat × Nat) := [
  (0x00ad, 0x00ad), (0x0300, 0x036f), (0x061c, 0x061c), (0x180e, 0x180e), (0x200b, 0x200f),
  (0x2028, 0x202e), (0x205f, 0x206f), (0x2000, 0x200a), (0x1680, 0x1680), (0x3000, 0x3000),
  (0xe000, 0xf8ff), (0xfe00, 0xfe0f), (0xfe20, 0xfe2f), (0xfeff, 0xfeff), (0xfff0, 0xfffb),
  (0xfffe, 0xffff), (0xe0000, 0x10ffff), (0x00a0, 0x00a0)]

/-- Whether a character is shown by its number. -/
def isUnseen (c : Char) : Bool :=
  -- Control characters come in two runs.
  let code := c.toNat
  code < 0x20 || (0x7f ≤ code && code < 0xa0) ||
    unseen.any fun range => range.1 ≤ code && code ≤ range.2

/-- The hexadecimal digits of a number, without leading zeros. -/
def hexDigits (n : Nat) : List Char :=
  -- The last digit is the remainder.
  if n < 16 then [Hex.digit n] else hexDigits (n / 16) ++ [Hex.digit (n % 16)]

/-- One character inside quotes. -/
def escape (c : Char) : List Char :=
  -- Quotes and backslashes are marked, and what could not be seen is named.
  match c with
  | '"' => ['\\', '"']
  | '\\' => ['\\', '\\']
  | '\n' => ['\\', 'n']
  | '\t' => ['\\', 't']
  | '\r' => ['\\', 'r']
  | '\x00' => ['\\', '0']
  | c =>
    if isUnseen c then ['\\', 'u', '\x7b'] ++ hexDigits c.toNat ++ ['\x7d'] else [c]

/-- A text inside quotes. -/
def quoted (s : String) : String :=
  -- Every character is shown on its own.
  String.ofList ('"' :: (s.toList.flatMap escape ++ ['"']))

/-- A value that may be absent. -/
def optional : Option String → String
  -- A present one is wrapped.
  | none => "None"
  | some s => s!"Some({s})"

/-- A truth value. -/
def bool (b : Bool) : String :=
  -- Written in lower case.
  if b then "true" else "false"

/-- A record by its name and fields. -/
def record (name : String) (fields : List (String × String)) : String :=
  -- Fields stand between braces, separated by commas.
  let parts := fields.map fun field => field.1 ++ ": " ++ field.2
  name ++ " \x7b " ++ ", ".intercalate parts ++ " \x7d"

end PacketPlane.Shown
