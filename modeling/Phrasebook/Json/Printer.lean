import Phrasebook.Json.Value

/-!
# Printing JSON text

Two layouts of one syntax: `Value.compact` without any blank, `Value.pretty`
with one item a line, indented by two blanks.
-/

namespace Phrasebook.Json

/-- A character as it stands between quotes: a quote, a backslash and control
characters are escaped, all else is itself. -/
def escaped (c : Char) : List Char :=
  if c = '"' then ['\\', '"']
  else if c = '\\' then ['\\', '\\']
  else if c = '\x08' then ['\\', 'b']
  else if c = '\x0c' then ['\\', 'f']
  else if c = '\n' then ['\\', 'n']
  else if c = '\r' then ['\\', 'r']
  else if c = '\t' then ['\\', 't']
  else if c.toNat < 0x20 then
    ['\\', 'u', '0', '0', Nat.digitChar (c.toNat / 16), Nat.digitChar (c.toNat % 16)]
  else [c]

/-- A string in quotes. -/
def quoted (s : String) : List Char :=
  '"' :: s.toList.flatMap escaped ++ ['"']

/-- The text of a value that holds no other value. -/
def scalarText : Value → List Char
  | .null => ['n', 'u', 'l', 'l']
  | .bool true => ['t', 'r', 'u', 'e']
  | .bool false => ['f', 'a', 'l', 's', 'e']
  | .number n => n.text.toList
  | .string s => quoted s
  | .array _ => ['[', ']']
  | .object _ => ['{', '}']

mutual

/-- The text without blanks. -/
def compactText : Value → List Char
  | .array items => '[' :: compactItems true items
  | .object members => '{' :: compactMembers true members
  | scalar => scalarText scalar

/-- The items and the closing bracket; a comma precedes all but the first. -/
def compactItems : Bool → List Value → List Char
  | _, [] => [']']
  | first, item :: rest =>
      (if first then [] else [',']) ++ compactText item ++ compactItems false rest

/-- The members and the closing brace; a comma precedes all but the first. -/
def compactMembers : Bool → List (String × Value) → List Char
  | _, [] => ['}']
  | first, (name, value) :: rest =>
      (if first then [] else [',']) ++ quoted name ++ ':' :: compactText value ++
        compactMembers false rest

end

/-- A line break and the indentation of a depth. -/
def newline (depth : Nat) : List Char :=
  '\n' :: List.replicate (2 * depth) ' '

mutual

/-- The indented text of a value inside `depth` containers. -/
def prettyText : Nat → Value → List Char
  | depth, .array (item :: rest) => '[' :: prettyItems depth true (item :: rest)
  | depth, .object (member :: rest) => '{' :: prettyMembers depth true (member :: rest)
  | _, scalar => scalarText scalar

/-- The items, each on its line, and the closing bracket on its own. -/
def prettyItems : Nat → Bool → List Value → List Char
  | depth, _, [] => newline depth ++ [']']
  | depth, first, item :: rest =>
      (if first then [] else [',']) ++ newline (depth + 1) ++ prettyText (depth + 1) item ++
        prettyItems depth false rest

/-- The members, each on its line, and the closing brace on its own. -/
def prettyMembers : Nat → Bool → List (String × Value) → List Char
  | depth, _, [] => newline depth ++ ['}']
  | depth, first, (name, value) :: rest =>
      (if first then [] else [',']) ++ newline (depth + 1) ++ quoted name ++ ':' :: ' ' ::
        prettyText (depth + 1) value ++ prettyMembers depth false rest

end

/-- The text without blanks. -/
def Value.compact (value : Value) : String :=
  String.ofList (compactText value)

/-- The text with one item a line. -/
def Value.pretty (value : Value) : String :=
  String.ofList (prettyText 0 value)

end Phrasebook.Json
