import PacketPlane.Json.Value
import PacketPlane.Text.Hex

/-! Printing JSON: on one line, or with one item to a line and two spaces to a level. -/

namespace PacketPlane.Json

/-- One character of a text, escaped where the grammar asks for it. -/
def escape (c : Char) : List Char :=
  -- The short escapes come first, and other control characters are written by number.
  match c with
  | '"' => ['\\', '"']
  | '\\' => ['\\', '\\']
  | '\x08' => ['\\', 'b']
  | '\x0c' => ['\\', 'f']
  | '\n' => ['\\', 'n']
  | '\r' => ['\\', 'r']
  | '\t' => ['\\', 't']
  | c =>
    if c.toNat < 0x20 then ['\\', 'u', '0', '0', Hex.digit (c.toNat / 16), Hex.digit (c.toNat % 16)]
    else [c]

/-- A text between quotes; one that could not be spelled out is written as empty. -/
def quote (value : Text) : List Char :=
  -- Only what has to be escaped is.
  '"' :: ((value.getD "").toList.flatMap escape ++ ['"'])

/-- Where line breaks and blanks go. -/
inductive Layout where
  | line
  | indented (level : Nat)

/-- The layout of what is inside a container. -/
def Layout.inner : Layout → Layout
  -- Each container is one level deeper.
  | .line => .line
  | .indented level => .indented (level + 1)

/-- What stands before an item or a closing bracket. -/
def Layout.newline : Layout → List Char
  -- Two blanks to a level.
  | .line => []
  | .indented level => '\n' :: List.replicate (2 * level) ' '

/-- What stands between a key and its value. -/
def Layout.colon : Layout → List Char
  -- The indented form is written for people.
  | .line => [':']
  | .indented _ => [':', ' ']

mutual
/-- The characters of a value in a layout. -/
def Value.chars (layout : Layout) : Value → List Char
  -- An empty container is closed at once in either layout.
  | .null => ['n', 'u', 'l', 'l']
  | .bool true => ['t', 'r', 'u', 'e']
  | .bool false => ['f', 'a', 'l', 's', 'e']
  | .number lexeme => lexeme.toList
  | .text value => quote value
  | .list [] => ['[', ']']
  | .list (item :: rest) =>
    '[' :: (layout.inner.newline ++ item.chars layout.inner ++ itemsChars layout.inner rest
      ++ layout.newline ++ [']'])
  | .table [] => ['\x7b', '\x7d']
  | .table ((key, value) :: rest) =>
    '\x7b' :: (layout.inner.newline ++ quote key ++ layout.inner.colon ++ value.chars layout.inner
      ++ entriesChars layout.inner rest ++ layout.newline ++ ['\x7d'])

/-- The characters of the items after the first. -/
def itemsChars (layout : Layout) : List Value → List Char
  -- Every item but the first follows a comma.
  | [] => []
  | item :: rest => ',' :: (layout.newline ++ item.chars layout ++ itemsChars layout rest)

/-- The characters of the entries after the first. -/
def entriesChars (layout : Layout) : List (Text × Value) → List Char
  -- Every entry but the first follows a comma.
  | [] => []
  | (key, value) :: rest =>
    ',' :: (layout.newline ++ quote key ++ layout.colon ++ value.chars layout
      ++ entriesChars layout rest)
end

/-- A value on one line. -/
def Value.compact (value : Value) : String :=
  -- No blanks at all.
  String.ofList (value.chars .line)

/-- A value with one item to a line. -/
def Value.pretty (value : Value) : String :=
  -- The outermost brackets stand at the margin.
  String.ofList (value.chars (.indented 0))

end PacketPlane.Json
