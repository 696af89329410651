import PacketPlane.Json.Reader
import PacketPlane.Proofs.Json.Spelling

/-! Words of a value: a value is written word by word in every layout, and read back from its words. -/

namespace PacketPlane.Json

mutual
/-- The words that a value is written in. -/
def Value.words : Value → List Token
  -- Brackets and commas are words like any other.
  | .null => [.null]
  | .bool value => [.bool value]
  | .number lexeme => [.number lexeme]
  | .text value => [.text value]
  | .list [] => [.openList, .closeList]
  | .list (item :: rest) => .openList :: (item.words ++ itemsWords rest ++ [.closeList])
  | .table [] => [.openTable, .closeTable]
  | .table ((key, value) :: rest) =>
    .openTable :: .text key :: .colon :: (value.words ++ entriesWords rest ++ [.closeTable])

/-- The words of the items after the first. -/
def itemsWords : List Value → List Token
  -- Every item but the first follows a comma.
  | [] => []
  | item :: rest => .comma :: (item.words ++ itemsWords rest)

/-- The words of the entries after the first. -/
def entriesWords : List (Text × Value) → List Token
  -- Every entry but the first follows a comma.
  | [] => []
  | (key, value) :: rest => .comma :: .text key :: .colon :: (value.words ++ entriesWords rest)
end

section Reading

/-- Reading goes on word by word. -/
theorem advanceAll_cons {progress next : Progress} {word : Token}
    (further : advance progress word = some next) (rest : List Token) :
    advanceAll progress (word :: rest) = advanceAll next rest := by
  simp only [advanceAll, further]

/-- The first item of a list is read like any other value. -/
theorem advanceAll_firstItem (stack : List Frame) (item : Value) (rest : List Token) :
    advanceAll (.firstItem stack) (item.words ++ rest) =
      advanceAll (.value (.list [] :: stack)) (item.words ++ rest) := by
  -- No value starts with the bracket that closes a list.
  cases item with
  | null | bool | number | text => rfl
  | list items => cases items <;> rfl
  | table entries => cases entries <;> rfl

mutual
/-- The words of a value are read as that value, whichever containers it stands in. -/
theorem advanceAll_words (v : Value) (stack : List Frame) (rest : List Token) :
    advanceAll (.value stack) (v.words ++ rest) = advanceAll (complete v stack) rest := by
  -- By recursion on the value, along with the two lemmas on items and entries below.
  cases v with
  | null | bool | number | text => rfl
  | list items =>
    cases items with
    | nil => rfl
    | cons item items =>
      -- A list opens, has its first item, then the others, and closes.
      calc advanceAll (.value stack) ((Value.list (item :: items)).words ++ rest)
          = advanceAll (.firstItem stack)
              (item.words ++ (itemsWords items ++ .closeList :: rest)) := by
            simp only [Value.words, List.cons_append, List.append_assoc, List.nil_append]
            exact advanceAll_cons rfl _
        _ = advanceAll (.afterItem [item] stack) (itemsWords items ++ .closeList :: rest) := by
            rw [advanceAll_firstItem, advanceAll_words item]
            rfl
        _ = advanceAll (complete (.list (item :: items)) stack) rest :=
            advanceAll_itemsWords items [item] stack rest
  | table entries =>
    cases entries with
    | nil => rfl
    | cons entry entries =>
      obtain ⟨key, value⟩ := entry
      -- A table opens with its first key, has the value, then the other entries, and closes.
      calc advanceAll (.value stack) ((Value.table ((key, value) :: entries)).words ++ rest)
          = advanceAll (.value (.table [] key :: stack))
              (value.words ++ (entriesWords entries ++ .closeTable :: rest)) := by
            simp only [Value.words, List.cons_append, List.append_assoc, List.nil_append]
            rfl
        _ = advanceAll (.afterEntry [(key, value)] stack)
              (entriesWords entries ++ .closeTable :: rest) := by
            rw [advanceAll_words value]
            rfl
        _ = advanceAll (complete (.table ((key, value) :: entries)) stack) rest :=
            advanceAll_entriesWords entries [(key, value)] stack rest

/-- The words of items are read behind those of a list that were read before. -/
theorem advanceAll_itemsWords (items done : List Value) (stack : List Frame) (rest : List Token) :
    advanceAll (.afterItem done stack) (itemsWords items ++ .closeList :: rest) =
      advanceAll (complete (.list (done.reverse ++ items)) stack) rest := by
  -- By recursion on the items, each of which is added behind those that were read.
  cases items with
  | nil =>
    rw [List.append_nil]
    rfl
  | cons item items =>
    calc advanceAll (.afterItem done stack) (itemsWords (item :: items) ++ .closeList :: rest)
        = advanceAll (.value (.list done :: stack))
            (item.words ++ (itemsWords items ++ .closeList :: rest)) := by
          simp only [itemsWords, List.cons_append, List.append_assoc]
          rfl
      _ = advanceAll (.afterItem (item :: done) stack)
            (itemsWords items ++ .closeList :: rest) := advanceAll_words item _ _
      _ = advanceAll (complete (.list ((item :: done).reverse ++ items)) stack) rest :=
          advanceAll_itemsWords items (item :: done) stack rest
      _ = advanceAll (complete (.list (done.reverse ++ item :: items)) stack) rest := by
          rw [List.reverse_cons, List.append_assoc, List.singleton_append]

/-- The words of entries are read behind those of a table that were read before. -/
theorem advanceAll_entriesWords (entries done : List (Text × Value)) (stack : List Frame)
    (rest : List Token) :
    advanceAll (.afterEntry done stack) (entriesWords entries ++ .closeTable :: rest) =
      advanceAll (complete (.table (done.reverse ++ entries)) stack) rest := by
  -- By recursion on the entries, each of which is added behind those that were read.
  cases entries with
  | nil =>
    rw [List.append_nil]
    rfl
  | cons entry entries =>
    obtain ⟨key, value⟩ := entry
    calc advanceAll (.afterEntry done stack)
          (entriesWords ((key, value) :: entries) ++ .closeTable :: rest)
        = advanceAll (.value (.table done key :: stack))
            (value.words ++ (entriesWords entries ++ .closeTable :: rest)) := by
          simp only [entriesWords, List.cons_append, List.append_assoc]
          rfl
      _ = advanceAll (.afterEntry ((key, value) :: done) stack)
            (entriesWords entries ++ .closeTable :: rest) := advanceAll_words value _ _
      _ = advanceAll (complete (.table (((key, value) :: done).reverse ++ entries)) stack) rest :=
          advanceAll_entriesWords entries ((key, value) :: done) stack rest
      _ = advanceAll (complete (.table (done.reverse ++ (key, value) :: entries)) stack) rest := by
          rw [List.reverse_cons, List.append_assoc, List.singleton_append]
end

end Reading

/-- A word that is found again where it was written: a number is spelled as one, and a text is spelled
out. -/
def Token.Spelled : Token → Prop
  -- The other words have one spelling each.
  | .number lexeme => number? lexeme.toList = some (.number lexeme, [])
  | .text value => value.isSome
  | _ => True

/-- A value whose words are all found again. -/
def Value.Spelled (v : Value) : Prop :=
  ∀ word ∈ v.words, word.Spelled

/-- A number that is written plainly is found again. -/
theorem spelled_nat (n : Nat) : (Value.nat n).Spelled := by
  -- The only word is the number.
  intro word member
  rw [List.mem_singleton.mp member, Token.Spelled, String.toList_ofList]
  exact number?_decimal n

/-- A truth value is found again. -/
theorem spelled_bool (b : Bool) : (Value.bool b).Spelled := by
  -- The only word is the truth value.
  intro word member
  rw [List.mem_singleton.mp member]
  trivial

/-- A text is found again. -/
theorem spelled_str (s : String) : (Value.str s).Spelled := by
  -- The only word is the text.
  intro word member
  rw [List.mem_singleton.mp member]
  rfl

/-- Entries whose values are found again have keys and values that are. -/
theorem spelled_entries {entries : List (String × Value)}
    (spelled : ∀ entry ∈ entries, entry.2.Spelled) :
    ∀ word ∈ entriesWords (entries.map fun entry => (some entry.1, entry.2)), word.Spelled := by
  -- By induction on the entries, whose words are a comma, a key, a colon and those of a value.
  induction entries with
  | nil =>
    intro word member
    cases member
  | cons entry entries ih =>
    have later := ih fun other listed => spelled other (List.mem_cons_of_mem entry listed)
    intro word member
    simp only [List.map_cons, entriesWords, List.mem_cons, List.mem_append] at member
    rcases member with rfl | rfl | rfl | member | member
    · trivial
    · rfl
    · trivial
    · exact spelled entry List.mem_cons_self word member
    · exact later word member

/-- A table is written in its brackets and the words of its entries. -/
theorem mem_words_table {entries : List (Text × Value)} {word : Token}
    (member : word ∈ (Value.table entries).words) :
    word = .openTable ∨ word = .closeTable ∨ word ∈ entriesWords entries := by
  -- By cases on whether there are entries, since the first has no comma in front.
  cases entries with
  | nil => simpa [Value.words, entriesWords] using member
  | cons entry entries =>
    simp only [Value.words, entriesWords, List.mem_cons, List.mem_append] at member ⊢
    grind

/-- A table with keys is found again when its values are. -/
theorem spelled_record {entries : List (String × Value)}
    (spelled : ∀ entry ∈ entries, entry.2.Spelled) : (Value.record entries).Spelled := by
  -- Brackets are found again whatever they enclose.
  intro word member
  rcases mem_words_table member with rfl | rfl | member
  · trivial
  · trivial
  · exact spelled_entries spelled word member

section Printing

variable {rest : List Char}

/-- What stands before an item or a closing bracket is passed over. -/
theorem tokensFrom_newline (layout : Layout) (sofar : List Token) (rest : List Char) :
    tokensFrom sofar (layout.newline ++ rest) = tokensFrom sofar rest := by
  -- By cases on the layout: nothing is there, or a new line and blanks.
  apply tokensFrom_blanks
  intro c member
  cases layout with
  | line => cases member
  | indented level =>
    rcases List.mem_cons.mp member with rfl | member
    · rfl
    · rw [(List.mem_replicate.mp member).2]
      rfl

/-- What stands between a key and its value is a colon. -/
theorem tokensFrom_colon (layout : Layout) (sofar : List Token) (rest : List Char) :
    tokensFrom sofar (layout.colon ++ rest) = tokensFrom (.colon :: sofar) rest := by
  -- By cases on the layout: a blank may follow the colon.
  cases layout with
  | line => exact tokensFrom_word rfl sofar
  | indented level =>
    have blank : ∀ c ∈ [' '], isBlank c = true := by
      intro c member
      rw [List.mem_singleton.mp member]
      rfl
    rw [show tokensFrom sofar ((Layout.indented level).colon ++ rest) =
      tokensFrom (.colon :: sofar) ([' '] ++ rest) from tokensFrom_word rfl sofar]
    exact tokensFrom_blanks blank _ _

/-- A text that starts in a new line goes on with no number. -/
theorem delimited_newline (layout : Layout) (ends : Delimited rest) :
    Delimited (layout.newline ++ rest) := by
  -- By cases on the layout: the text goes on at once, or with a new line.
  cases layout with
  | line => exact ends
  | indented level => exact delimited_cons (by decide)

/-- What follows the items of a list goes on with no number. -/
theorem delimited_items (layout : Layout) (items : List Value) (ends : Delimited rest) :
    Delimited (itemsChars layout items ++ rest) := by
  -- A further item starts with its comma.
  cases items with
  | nil => exact ends
  | cons item items => exact delimited_cons (by decide)

/-- What follows the entries of a table goes on with no number. -/
theorem delimited_entries (layout : Layout) (entries : List (Text × Value))
    (ends : Delimited rest) : Delimited (entriesChars layout entries ++ rest) := by
  -- A further entry starts with its comma.
  cases entries with
  | nil => exact ends
  | cons entry entries => exact delimited_cons (by decide)

/-- A key that is spelled out is found again. -/
theorem tokensFrom_quote {value : Text} (spelled : (Token.text value).Spelled)
    (sofar : List Token) (rest : List Char) :
    tokensFrom sofar (quote value ++ rest) = tokensFrom (.text value :: sofar) rest := by
  -- A key that is spelled out is a string, and a string is quoted.
  obtain ⟨value, rfl⟩ := Option.isSome_iff_exists.mp spelled
  exact tokensFrom_word (token?_quote value rest) sofar

/-- A number is found again in front of what goes on with no number. -/
theorem tokensFrom_number {lexeme : String} (spelled : (Token.number lexeme).Spelled)
    (ends : Delimited rest) (sofar : List Token) :
    tokensFrom sofar (lexeme.toList ++ rest) = tokensFrom (.number lexeme :: sofar) rest :=
  tokensFrom_word (token?_number (number?_delimited ends spelled)) sofar

end Printing

mutual
/-- The words of a value are found again in its characters, in order and whatever the layout. -/
theorem tokensFrom_chars (layout : Layout) (v : Value) (spelled : v.Spelled) {rest : List Char}
    (ends : Delimited rest) (sofar : List Token) :
    tokensFrom sofar (v.chars layout ++ rest) = tokensFrom (v.words.reverse ++ sofar) rest := by
  -- By recursion on the value, along with the two lemmas on items and entries below.
  cases v with
  | null => exact tokensFrom_word rfl sofar
  | bool value => cases value <;> exact tokensFrom_word rfl sofar
  | number lexeme => exact tokensFrom_number (spelled _ List.mem_cons_self) ends sofar
  | text value => exact tokensFrom_quote (spelled _ List.mem_cons_self) sofar rest
  | list items =>
    cases items with
    | nil =>
      rw [show tokensFrom sofar ((Value.list []).chars layout ++ rest) =
        tokensFrom (.openList :: sofar) (']' :: rest) from tokensFrom_word rfl sofar]
      exact tokensFrom_word rfl _
    | cons item items =>
      simp only [Value.Spelled, Value.words, List.mem_cons, List.mem_append] at spelled
      -- What follows the last item is no part of it.
      have close : Delimited (layout.newline ++ ']' :: rest) :=
        delimited_newline layout (delimited_cons (by decide))
      calc tokensFrom sofar ((Value.list (item :: items)).chars layout ++ rest)
          = tokensFrom (.openList :: sofar) (layout.inner.newline ++ (item.chars layout.inner ++
              (itemsChars layout.inner items ++ (layout.newline ++ ']' :: rest)))) := by
            simp only [Value.chars, List.cons_append, List.append_assoc, List.nil_append]
            exact tokensFrom_word rfl sofar
        _ = tokensFrom (item.words.reverse ++ .openList :: sofar)
              (itemsChars layout.inner items ++ (layout.newline ++ ']' :: rest)) := by
            rw [tokensFrom_newline]
            exact tokensFrom_chars layout.inner item (by grind [Value.Spelled])
              (delimited_items _ _ close) _
        _ = tokensFrom ((itemsWords items).reverse ++ (item.words.reverse ++ .openList :: sofar))
              (']' :: rest) := by
            rw [tokensFrom_itemsChars layout.inner items (by grind) close, tokensFrom_newline]
        _ = tokensFrom ((Value.list (item :: items)).words.reverse ++ sofar) rest := by
            rw [tokensFrom_word (rfl : token? (']' :: rest) = some (.closeList, rest))]
            simp [Value.words]
  | table entries =>
    cases entries with
    | nil =>
      rw [show tokensFrom sofar ((Value.table []).chars layout ++ rest) =
        tokensFrom (.openTable :: sofar) ('\x7d' :: rest) from tokensFrom_word rfl sofar]
      exact tokensFrom_word rfl _
    | cons entry entries =>
      obtain ⟨key, value⟩ := entry
      simp only [Value.Spelled, Value.words, List.mem_cons, List.mem_append] at spelled
      -- What follows the last entry is no part of it.
      have close : Delimited (layout.newline ++ '\x7d' :: rest) :=
        delimited_newline layout (delimited_cons (by decide))
      calc tokensFrom sofar ((Value.table ((key, value) :: entries)).chars layout ++ rest)
          = tokensFrom (.openTable :: sofar) (layout.inner.newline ++ (quote key ++
              (layout.inner.colon ++ (value.chars layout.inner ++
                (entriesChars layout.inner entries ++ (layout.newline ++ '\x7d' :: rest)))))) := by
            simp only [Value.chars, List.cons_append, List.append_assoc, List.nil_append]
            exact tokensFrom_word rfl sofar
        _ = tokensFrom (value.words.reverse ++ .colon :: .text key :: .openTable :: sofar)
              (entriesChars layout.inner entries ++ (layout.newline ++ '\x7d' :: rest)) := by
            rw [tokensFrom_newline, tokensFrom_quote (spelled _ (by simp)), tokensFrom_colon]
            exact tokensFrom_chars layout.inner value (by grind [Value.Spelled])
              (delimited_entries _ _ close) _
        _ = tokensFrom ((entriesWords entries).reverse ++
              (value.words.reverse ++ .colon :: .text key :: .openTable :: sofar))
              ('\x7d' :: rest) := by
            rw [tokensFrom_entriesChars layout.inner entries (by grind) close, tokensFrom_newline]
        _ = tokensFrom ((Value.table ((key, value) :: entries)).words.reverse ++ sofar) rest := by
            rw [tokensFrom_word (rfl : token? ('\x7d' :: rest) = some (.closeTable, rest))]
            simp [Value.words]

/-- The words of items are found again in their characters. -/
theorem tokensFrom_itemsChars (layout : Layout) (items : List Value)
    (spelled : ∀ word ∈ itemsWords items, word.Spelled) {rest : List Char}
    (ends : Delimited rest) (sofar : List Token) :
    tokensFrom sofar (itemsChars layout items ++ rest) =
      tokensFrom ((itemsWords items).reverse ++ sofar) rest := by
  -- By recursion on the items, each of which follows its comma.
  cases items with
  | nil => rfl
  | cons item items =>
    simp only [itemsWords, List.mem_cons, List.mem_append] at spelled
    calc tokensFrom sofar (itemsChars layout (item :: items) ++ rest)
        = tokensFrom (.comma :: sofar) (layout.newline ++ (item.chars layout ++
            (itemsChars layout items ++ rest))) := by
          simp only [itemsChars, List.cons_append, List.append_assoc]
          exact tokensFrom_word rfl sofar
      _ = tokensFrom (item.words.reverse ++ .comma :: sofar) (itemsChars layout items ++ rest) := by
          rw [tokensFrom_newline]
          exact tokensFrom_chars layout item (by grind [Value.Spelled])
            (delimited_items _ _ ends) _
      _ = tokensFrom ((itemsWords items).reverse ++ (item.words.reverse ++ .comma :: sofar)) rest :=
          tokensFrom_itemsChars layout items (by grind) ends _
      _ = tokensFrom ((itemsWords (item :: items)).reverse ++ sofar) rest := by
          simp [itemsWords]

/-- The words of entries are found again in their characters. -/
theorem tokensFrom_entriesChars (layout : Layout) (entries : List (Text × Value))
    (spelled : ∀ word ∈ entriesWords entries, word.Spelled) {rest : List Char}
    (ends : Delimited rest) (sofar : List Token) :
    tokensFrom sofar (entriesChars layout entries ++ rest) =
      tokensFrom ((entriesWords entries).reverse ++ sofar) rest := by
  -- By recursion on the entries, each of which follows its comma.
  cases entries with
  | nil => rfl
  | cons entry entries =>
    obtain ⟨key, value⟩ := entry
    simp only [entriesWords, List.mem_cons, List.mem_append] at spelled
    calc tokensFrom sofar (entriesChars layout ((key, value) :: entries) ++ rest)
        = tokensFrom (.comma :: sofar) (layout.newline ++ (quote key ++ (layout.colon ++
            (value.chars layout ++ (entriesChars layout entries ++ rest))))) := by
          simp only [entriesChars, List.cons_append, List.append_assoc]
          exact tokensFrom_word rfl sofar
      _ = tokensFrom (value.words.reverse ++ .colon :: .text key :: .comma :: sofar)
            (entriesChars layout entries ++ rest) := by
          rw [tokensFrom_newline, tokensFrom_quote (spelled _ (by simp)), tokensFrom_colon]
          exact tokensFrom_chars layout value (by grind [Value.Spelled])
            (delimited_entries _ _ ends) _
      _ = tokensFrom ((entriesWords entries).reverse ++
            (value.words.reverse ++ .colon :: .text key :: .comma :: sofar)) rest :=
          tokensFrom_entriesChars layout entries (by grind) ends _
      _ = tokensFrom ((entriesWords ((key, value) :: entries)).reverse ++ sofar) rest := by
          simp [entriesWords]
end

/-- A value is read back from its characters, on one line as well as indented. -/
theorem read?_chars (layout : Layout) {v : Value} (spelled : v.Spelled) :
    read? (String.ofList (v.chars layout)) = some v := by
  -- The characters are cut into the words of the value, which are then read as the value.
  have found : tokens? (String.ofList (v.chars layout)) = some v.words := by
    have whole := tokensFrom_chars layout v spelled delimited_nil []
    rw [List.append_nil, List.append_nil] at whole
    rw [tokens?, String.toList_ofList, whole, tokensFrom, List.reverse_reverse]
  have read := advanceAll_words v [] []
  rw [List.append_nil] at read
  simp only [read?, found, read]
  rfl

end PacketPlane.Json
