import Phrasebook.Json.Lexeme

/-!
# Skipping JSON text

A value that nobody asks for is skipped: its form is checked, but numbers may
have any size, escapes any code unit, and containers may nest to any depth.
-/

namespace Phrasebook.Json.Skip

/-- The text after an escape, which follows a backslash. -/
def escape : List Char → Except Fault (List Char)
  | [] => .error (.behind .eofString [])
  | 'u' :: rest => (Lexeme.hexUnit rest).map Prod.snd
  | c :: rest =>
      if ['"', '\\', '/', 'b', 'f', 'n', 'r', 't'].contains c then .ok rest
      else .error ⟨.invalidEscape, c :: rest, 1⟩

/-- The text after a string that has been opened. -/
def string : Nat → List Char → Except Fault (List Char)
  | 0, text => .error (.behind .eofString text)
  | _ + 1, [] => .error (.behind .eofString [])
  | fuel + 1, c :: text =>
      if c = '"' then .ok text
      else if c = '\\' then
        match escape text with
        | .error fault => .error fault
        | .ok rest => string fuel rest
      else if c.toNat < 0x20 then .error (.behind .controlCharacter (c :: text))
      else string fuel text

/-- The text after the letter that starts an exponent. -/
def exponent (text : List Char) : Except Fault (List Char) :=
  let digits := match text with
    | '+' :: rest => rest
    | '-' :: rest => rest
    | rest => rest
  if Lexeme.startsWithDigit digits then .ok (digits.dropWhile Char.isDigit)
  else .error ⟨.invalidNumber, digits, 1⟩

/-- The text after the decimal point of a number. -/
def fraction (text : List Char) : Except Fault (List Char) :=
  if Lexeme.startsWithDigit text then
    match text.dropWhile Char.isDigit with
    | 'e' :: rest => exponent rest
    | 'E' :: rest => exponent rest
    | rest => .ok rest
  else .error (.ahead .invalidNumber text)

/-- The text after a number without its sign. -/
def number (text : List Char) : Except Fault (List Char) :=
  let tail (rest : List Char) : Except Fault (List Char) :=
    match rest with
    | '.' :: rest => fraction rest
    | 'e' :: rest => exponent rest
    | 'E' :: rest => exponent rest
    | rest => .ok rest
  match text with
  | '0' :: rest =>
      if Lexeme.startsWithDigit rest then .error (.ahead .invalidNumber rest)
      else tail rest
  | text =>
      if Lexeme.startsWithDigit text then tail (text.dropWhile Char.isDigit)
      else .error ⟨.invalidNumber, text, 1⟩

mutual

/-- The text after a value. -/
def value : Nat → List Char → Except Fault (List Char)
  | 0, text => .error (.ahead .eofValue text)
  | fuel + 1, text =>
      match Lexeme.skipBlanks text with
      | [] => .error (.ahead .eofValue [])
      | 'n' :: rest => Lexeme.word ['u', 'l', 'l'] rest
      | 't' :: rest => Lexeme.word ['r', 'u', 'e'] rest
      | 'f' :: rest => Lexeme.word ['a', 'l', 's', 'e'] rest
      | '"' :: rest => string (rest.length + 1) rest
      | '[' :: rest => items fuel true rest
      | '{' :: rest => members fuel true rest
      | '-' :: rest => number rest
      | c :: rest =>
          if c.isDigit then number (c :: rest)
          else .error (.ahead .expectedValue (c :: rest))

/-- The text after the items of an array. -/
def items : Nat → Bool → List Char → Except Fault (List Char)
  | 0, _, text => .error (.ahead .eofList text)
  | fuel + 1, first, text =>
      match Lexeme.skipBlanks text with
      | [] => .error (.ahead .eofList [])
      | ']' :: rest => .ok rest
      | c :: rest =>
          if first then
            (value fuel (c :: rest)).bind (items fuel false)
          else if c = ',' then (value fuel rest).bind (items fuel false)
          else .error (.ahead .expectedListCommaOrEnd (c :: rest))

/-- The text after the members of an object. -/
def members : Nat → Bool → List Char → Except Fault (List Char)
  | 0, _, text => .error (.ahead .eofObject text)
  | fuel + 1, first, text =>
      let member (text : List Char) : Except Fault (List Char) :=
        match Lexeme.skipBlanks text with
        | [] => .error (.ahead .eofObject [])
        | '"' :: rest => do
            match Lexeme.skipBlanks (← string (rest.length + 1) rest) with
            | [] => .error (.ahead .eofObject [])
            | ':' :: rest => (value fuel rest).bind (members fuel false)
            | rest => .error (.ahead .expectedColon rest)
        | rest => .error (.ahead .keyMustBeString rest)
      match Lexeme.skipBlanks text with
      | [] => .error (.ahead .eofObject [])
      | '}' :: rest => .ok rest
      | c :: rest =>
          if first then member (c :: rest)
          else if c = ',' then member rest
          else .error (.ahead .expectedObjectCommaOrEnd (c :: rest))

end

end Phrasebook.Json.Skip
