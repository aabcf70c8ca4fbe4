import Phrasebook.Json.Lexeme
import Phrasebook.Text.Quoted

/-!
# Reading values of a known type

Readers for strings, booleans, lists and tables of them.  A value of another type
is a fault that says what was found; scalars count as read then, containers do
not.
-/

namespace Phrasebook.Json.Typed

/-- The fault for a value of another type than the expected one. -/
def mismatch (expected : String) (text : List Char) : Fault :=
  let found (what : Found) (rest : List Char) : Fault :=
    .behind (.invalidType what expected) rest
  let word (letters rest : List Char) (what : Found) : Fault :=
    match Lexeme.word letters rest with
    | .ok rest => found what rest
    | .error fault => fault
  let number (negative : Bool) (rest : List Char) : Fault :=
    match Lexeme.number negative rest with
    | .ok (.integer value low high, rest) =>
        found (.integer (Number.integer value low high).text) rest
    | .ok (.double value, rest) => found (.double value.text) rest
    | .error fault => fault
  match text with
  | [] => .ahead .eofValue []
  | 'n' :: rest => word ['u', 'l', 'l'] rest .null
  | 't' :: rest => word ['r', 'u', 'e'] rest (.bool true)
  | 'f' :: rest => word ['a', 'l', 's', 'e'] rest (.bool false)
  | '-' :: rest => number true rest
  | '"' :: rest =>
      match Lexeme.string rest with
      | .ok (value, rest) => found (.string (Text.quote value)) rest
      | .error fault => fault
  | '[' :: _ => found .sequence text
  | '{' :: _ => found .map text
  | c :: rest =>
      if c.isDigit then number false (c :: rest)
      else .ahead .expectedValue (c :: rest)

/-- A string. -/
def string (text : List Char) : Reply String :=
  match Lexeme.skipBlanks text with
  | '"' :: rest => Lexeme.string rest
  | rest => .error (mismatch "a string" rest)

/-- A string or `null`. -/
def optionalString (text : List Char) : Reply (Option String) :=
  match Lexeme.skipBlanks text with
  | 'n' :: rest => (Lexeme.word ['u', 'l', 'l'] rest).map fun rest => (none, rest)
  | rest => (string rest).map fun (value, rest) => (some value, rest)

/-- A boolean. -/
def bool (text : List Char) : Reply Bool :=
  match Lexeme.skipBlanks text with
  | 't' :: rest => (Lexeme.word ['r', 'u', 'e'] rest).map fun rest => (true, rest)
  | 'f' :: rest => (Lexeme.word ['a', 'l', 's', 'e'] rest).map fun rest => (false, rest)
  | rest => .error (mismatch "a boolean" rest)

/-- Whether another item follows in an array; the text is then before it, else
before the closing bracket. -/
def moreItems (first : Bool) (text : List Char) : Reply Bool :=
  match Lexeme.skipBlanks text with
  | [] => .error (.ahead .eofList [])
  | ']' :: rest => .ok (false, ']' :: rest)
  | c :: rest =>
      if first then .ok (true, c :: rest)
      else if c = ',' then
        match Lexeme.skipBlanks rest with
        | [] => .error (.ahead .eofValue [])
        | ']' :: rest => .error (.ahead .trailingComma (']' :: rest))
        | rest => .ok (true, rest)
      else .error (.ahead .expectedListCommaOrEnd (c :: rest))

/-- The name of the next member of an object, if there is one; the text is then
after it, else before the closing brace. -/
def nextName (first : Bool) (text : List Char) : Reply (Option String) :=
  let name (rest : List Char) : Reply (Option String) :=
    (Lexeme.string rest).map fun (name, rest) => (some name, rest)
  match Lexeme.skipBlanks text with
  | [] => .error (.ahead .eofObject [])
  | '}' :: rest => .ok (none, '}' :: rest)
  | c :: rest =>
      if first then
        if c = '"' then name rest else .error (.ahead .keyMustBeString (c :: rest))
      else if c = ',' then
        match Lexeme.skipBlanks rest with
        | [] => .error (.ahead .eofValue [])
        | '"' :: rest => name rest
        | '}' :: rest => .error (.ahead .trailingComma ('}' :: rest))
        | rest => .error (.ahead .keyMustBeString rest)
      else .error (.ahead .expectedObjectCommaOrEnd (c :: rest))

/-- The colon after a member's name. -/
def colon (text : List Char) : Except Fault (List Char) :=
  match Lexeme.skipBlanks text with
  | [] => .error (.ahead .eofObject [])
  | ':' :: rest => .ok rest
  | rest => .error (.ahead .expectedColon rest)

/-- The strings of an array after its opening bracket. -/
def stringItems : Nat → Bool → List Char → Except Fault (List String × List Char)
  | 0, _, text => .error (.ahead .eofList text)
  | fuel + 1, first, text => do
      let (more, rest) ← moreItems first text
      if more then
        let (item, rest) ← string rest
        let (items, rest) ← stringItems fuel false rest
        return (item :: items, rest)
      else return ([], rest.drop 1)

/-- A list of strings. -/
def strings (text : List Char) : Reply (List String) :=
  match Lexeme.skipBlanks text with
  | '[' :: rest => stringItems (rest.length + 1) true rest
  | rest => .error (mismatch "a sequence" rest)

/-- The members of an object of lists of strings after its opening brace. -/
def stringsEntries : Nat → Bool → List Char →
    Except Fault (List (String × List String) × List Char)
  | 0, _, text => .error (.ahead .eofObject text)
  | fuel + 1, first, text => do
      match ← nextName first text with
      | (some name, rest) =>
          let (value, rest) ← strings (← colon rest)
          let (entries, rest) ← stringsEntries fuel false rest
          return ((name, value) :: entries, rest)
      | (none, rest) => return ([], rest.drop 1)

/-- A table of lists of strings, in increasing order of the names. -/
def stringsTable (text : List Char) : Reply (List (String × List String)) :=
  match Lexeme.skipBlanks text with
  | '{' :: rest =>
      (stringsEntries (rest.length + 1) true rest).map fun (entries, rest) =>
        (Table.sorted entries, rest)
  | rest => .error (mismatch "a map" rest)

/-- The end of an array whose wanted items have been read. -/
def endOfArray (text : List Char) : Except Fault (List Char) :=
  match Lexeme.skipBlanks text with
  | [] => .error (.ahead .eofList [])
  | ']' :: rest => .ok rest
  | ',' :: rest =>
      match Lexeme.skipBlanks rest with
      | ']' :: rest => .error (.ahead .trailingComma (']' :: rest))
      | rest => .error (.ahead .trailingCharacters rest)
  | rest => .error (.ahead .trailingCharacters rest)

end Phrasebook.Json.Typed
