import PacketPlane.Text.Hex

/-! Socket addresses: an address of either family, and a port behind a colon. -/

namespace PacketPlane.SocketAddress

/-- A number in a base at the front of a text, and what follows it. It has at least one digit and
at most as many as allowed, and it stays below a bound. -/
def number? (base bound : Nat) (most : Option Nat) (leadingZero : Bool) (cs : List Char) :
    Option (Nat × List Char) :=
  -- A longer run of digits is refused as a whole.
  let isDigit := fun c => match Hex.value? c with
    | some value => value < base
    | none => false
  let digits := cs.takeWhile isDigit
  let value := digits.foldl (fun value c => value * base + (Hex.value? c).getD 0) 0
  let tooLong := match most with
    | some most => digits.length > most
    | none => false
  if digits.isEmpty || tooLong || value ≥ bound then none
  else if !leadingZero && digits.head? == some '0' && digits.length > 1 then none
  else some (value, cs.drop digits.length)

/-- What follows a character at the front of a text. -/
def char? (c : Char) : List Char → Option (List Char)
  -- Any other character is refused.
  | d :: rest => if c == d then some rest else none
  | [] => none

/-- What follows an address of four numbers. -/
def ipv4? (cs : List Char) : Option (List Char) := do
  -- Each number fits a byte and is written without leading zeros.
  let octet := number? 10 256 (some 3) false
  let (_, cs) ← octet cs
  let (_, cs) ← octet (← char? '.' cs)
  let (_, cs) ← octet (← char? '.' cs)
  let (_, cs) ← octet (← char? '.' cs)
  return cs

/-- Up to a number of groups separated by colons: how many there were, whether they ended in an
address of four numbers, and what follows them. -/
def groups (limit : Nat) : Nat → Nat → List Char → Nat × Bool × List Char
  -- An address of four numbers takes the place of two groups.
  | 0, read, cs => (read, false, cs)
  | fuel + 1, read, cs =>
    if read ≥ limit then (read, false, cs)
    else
      let after := if read = 0 then some cs else char? ':' cs
      match after with
      | none => (read, false, cs)
      | some after =>
        let embedded := if read + 1 < limit then ipv4? after else none
        match embedded with
        | some rest => (read + 2, true, rest)
        | none =>
          match number? 16 65536 (some 4) true after with
          | some (_, rest) => groups limit fuel (read + 1) rest
          | none => (read, false, cs)

/-- What follows an address of eight groups, some of which may be left out once. -/
def ipv6? (cs : List Char) : Option (List Char) := do
  -- Two colons stand for at least one group of zeros.
  let (front, embedded, rest) := groups 8 8 0 cs
  if front = 8 then return rest
  if embedded then none
  let rest ← char? ':' rest
  let rest ← char? ':' rest
  let (_, _, rest) := groups (7 - front) (7 - front) 0 rest
  return rest

/-- Whether a text is a port behind a colon. -/
def isPort (cs : List Char) : Bool :=
  -- Leading zeros are allowed here.
  match (char? ':' cs).bind (number? 10 65536 none true) with
  | some (_, []) => true
  | _ => false

/-- What follows a scope, which may be left out. -/
def scope (cs : List Char) : List Char :=
  -- A scope is a number of 32 bits.
  match (char? '%' cs).bind (number? 10 UInt32.size none true) with
  | some (_, rest) => rest
  | none => cs

/-- Whether a text is a socket address of the longer family. -/
def isLong (cs : List Char) : Bool :=
  -- Brackets keep the port apart from the address.
  match (char? '[' cs).bind ipv6? with
  | none => false
  | some rest =>
    match char? ']' (scope rest) with
    | none => false
    | some rest => isPort rest

/-- Whether a text is a socket address. -/
def isValid (text : String) : Bool :=
  -- The shorter family is tried first.
  let cs := text.toList
  (match ipv4? cs with
    | some rest => isPort rest
    | none => false) || isLong cs

end PacketPlane.SocketAddress
