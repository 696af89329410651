import PacketPlane.Json.Token

/-! Reading JSON: one word at a time over a stack of open containers, so any nesting depth is read.
-/

namespace PacketPlane.Json

/-- A container that is waiting for a value; what it holds so far comes last first. -/
inductive Frame where
  | list (done : List Value)
  | table (done : List (Text × Value)) (key : Text)
deriving Inhabited, Repr

/-- What may come next in a text, with the containers that are still open, innermost first. -/
inductive Progress where
  | value (stack : List Frame)
  | firstItem (stack : List Frame)
  | firstKey (stack : List Frame)
  | key (done : List (Text × Value)) (stack : List Frame)
  | colon (key : Text) (done : List (Text × Value)) (stack : List Frame)
  | afterItem (done : List Value) (stack : List Frame)
  | afterEntry (done : List (Text × Value)) (stack : List Frame)
  | finished (value : Value)
deriving Inhabited, Repr

/-- A whole value has been read: it goes into the innermost open container. -/
def complete (value : Value) : List Frame → Progress
  -- With no container open, it is the value of the text.
  | [] => .finished value
  | .list done :: stack => .afterItem (value :: done) stack
  | .table done key :: stack => .afterEntry ((key, value) :: done) stack

/-- The first word of a value. -/
def start (stack : List Frame) : Token → Option Progress
  -- A scalar is whole at once, and a bracket opens a container.
  | .null => some (complete .null stack)
  | .bool value => some (complete (.bool value) stack)
  | .number lexeme => some (complete (.number lexeme) stack)
  | .text value => some (complete (.text value) stack)
  | .openList => some (.firstItem stack)
  | .openTable => some (.firstKey stack)
  | _ => none

/-- One word further, or nothing when the word may not stand here. -/
def advance : Progress → Token → Option Progress
  -- A comma has to be followed by another item or key.
  | .value stack, word => start stack word
  | .firstItem stack, .closeList => some (complete (.list []) stack)
  | .firstItem stack, word => start (.list [] :: stack) word
  | .firstKey stack, .closeTable => some (complete (.table []) stack)
  | .firstKey stack, .text key => some (.colon key [] stack)
  | .key done stack, .text key => some (.colon key done stack)
  | .colon key done stack, .colon => some (.value (.table done key :: stack))
  | .afterItem done stack, .comma => some (.value (.list done :: stack))
  | .afterItem done stack, .closeList => some (complete (.list done.reverse) stack)
  | .afterEntry done stack, .comma => some (.key done stack)
  | .afterEntry done stack, .closeTable => some (complete (.table done.reverse) stack)
  | _, _ => none

/-- All words further. -/
def advanceAll : Progress → List Token → Option Progress
  -- The first word that may not stand where it does ends the reading.
  | progress, [] => some progress
  | progress, word :: rest =>
    match advance progress word with
    | some progress => advanceAll progress rest
    | none => none

/-- The value that a text writes, if it writes exactly one. -/
def read? (text : String) : Option Value :=
  -- The text has to end where its value ends.
  match tokens? text with
  | some words =>
    match advanceAll (.value []) words with
    | some (.finished value) => some value
    | _ => none
  | none => none

end PacketPlane.Json
