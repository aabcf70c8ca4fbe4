import Phrasebook.Json.Lexeme

/-!
# Reading JSON text

`Value.parse` reads one value and nothing after it.  Containers nest at most 127
deep.  A repeated member name keeps its first place and takes the last value.
-/

namespace Phrasebook.Json

/-- One more than the number of containers that may be open at once. -/
def depthLimit : Nat := 128

mutual

/-- A value, with blanks in front.  `depth` counts down with each open
container. -/
def readValue : Nat → Nat → List Char → Reply Value
  | 0, _, text => .error (.ahead .eofValue text)
  | fuel + 1, depth, text =>
      match Lexeme.skipBlanks text with
      | [] => .error (.ahead .eofValue [])
      | 'n' :: rest => (Lexeme.word ['u', 'l', 'l'] rest).map fun rest => (.null, rest)
      | 't' :: rest =>
          (Lexeme.word ['r', 'u', 'e'] rest).map fun rest => (.bool true, rest)
      | 'f' :: rest =>
          (Lexeme.word ['a', 'l', 's', 'e'] rest).map fun rest => (.bool false, rest)
      | '"' :: rest => (Lexeme.string rest).map fun (s, rest) => (.string s, rest)
      | '[' :: rest =>
          if depth ≤ 1 then .error (.ahead .recursionLimit ('[' :: rest))
          else (readItems fuel (depth - 1) true rest).map fun (items, rest) =>
            (.array items, rest)
      | '{' :: rest =>
          if depth ≤ 1 then .error (.ahead .recursionLimit ('{' :: rest))
          else (readEntries fuel (depth - 1) true rest).map fun (entries, rest) =>
            (.object (Table.ofEntries entries), rest)
      | '-' :: rest =>
          (Lexeme.number true rest).map fun (n, rest) => (.number n, rest)
      | c :: rest =>
          if c.isDigit then
            (Lexeme.number false (c :: rest)).map fun (n, rest) => (.number n, rest)
          else .error (.ahead .expectedValue (c :: rest))

/-- The items of an array up to its closing bracket; all but the first follow a
comma. -/
def readItems : Nat → Nat → Bool → List Char → Reply (List Value)
  | 0, _, _, text => .error (.ahead .eofList text)
  | fuel + 1, depth, first, text =>
      let item (text : List Char) : Except Fault (List Value × List Char) := do
        let (value, rest) ← readValue fuel depth text
        let (items, rest) ← readItems fuel depth false rest
        return (value :: items, rest)
      match Lexeme.skipBlanks text with
      | [] => .error (.ahead .eofList [])
      | ']' :: rest => .ok ([], rest)
      | c :: rest =>
          if first then item (c :: rest)
          else if c = ',' then
            match Lexeme.skipBlanks rest with
            | [] => .error (.ahead .eofValue [])
            | ']' :: rest => .error (.ahead .trailingComma (']' :: rest))
            | rest => item rest
          else .error (.ahead .expectedListCommaOrEnd (c :: rest))

/-- The members of an object up to its closing brace, as they are written. -/
def readEntries : Nat → Nat → Bool → List Char → Reply (List (String × Value))
  | 0, _, _, text => .error (.ahead .eofObject text)
  | fuel + 1, depth, first, text =>
      let entry (text : List Char) : Except Fault (List (String × Value) × List Char) := do
        let (name, rest) ← Lexeme.string text
        match Lexeme.skipBlanks rest with
        | [] => .error (.ahead .eofObject [])
        | ':' :: rest =>
            let (value, rest) ← readValue fuel depth rest
            let (entries, rest) ← readEntries fuel depth false rest
            return ((name, value) :: entries, rest)
        | rest => .error (.ahead .expectedColon rest)
      match Lexeme.skipBlanks text with
      | [] => .error (.ahead .eofObject [])
      | '}' :: rest => .ok ([], rest)
      | c :: rest =>
          if first then
            if c = '"' then entry rest
            else .error (.ahead .keyMustBeString (c :: rest))
          else if c = ',' then
            match Lexeme.skipBlanks rest with
            | [] => .error (.ahead .eofValue [])
            | '"' :: rest => entry rest
            | '}' :: rest => .error (.ahead .trailingComma ('}' :: rest))
            | rest => .error (.ahead .keyMustBeString rest)
          else .error (.ahead .expectedObjectCommaOrEnd (c :: rest))

end

/-- Nothing but blanks may follow. -/
def expectEnd (text : List Char) : Except Fault Unit :=
  match Lexeme.skipBlanks text with
  | [] => .ok ()
  | rest => .error (.ahead .trailingCharacters rest)

/-- The value a text stands for. -/
def Value.read (text : List Char) : Except Fault Value := do
  let (value, rest) ← readValue (2 * text.length + 2) depthLimit text
  expectEnd rest
  return value

/-- The value a text stands for, or the message that says why there is none. -/
def Value.parse (text : String) : Except String Value :=
  (Value.read text.toList).mapError fun fault => fault.message text.toList

end Phrasebook.Json
