import Phrasebook.Text.Blank
import Phrasebook.Text.Hex
import Phrasebook.Text.Letter

/-!
# Tokens of source text

One token is read at a time, from a rest of the text.  A place in a text is the rest
that begins there.  What is a regular expression, a template or the text of an
element is not known here; the parser reads these from a token's beginning or end.
-/

namespace Phrasebook.Source

/-- A token.  A word is an identifier or a keyword.  A string that holds half of a
surrogate pair has no value. -/
inductive Token where
  | word (name : String) (escaped : Bool)
  | privateName
  | number
  | string (value : Option String)
  | punct (text : String)
  | eof
  | bad
  deriving DecidableEq, Repr

instance : Inhabited Token := ⟨.bad⟩

/-- A token with its place: the text from its beginning and from its end on, and
whether a line break precedes it. -/
structure Lexeme where
  token : Token
  newline : Bool
  start : List Char
  rest : List Char
  deriving Inhabited

namespace Lexeme

/-- Whether a character ends a line. -/
def isLineBreak (c : Char) : Bool :=
  c == '\n' || c == '\r' || c.toNat == 0x2028 || c.toNat == 0x2029

/-- Whether a character separates tokens. -/
def isSpace (c : Char) : Bool :=
  Text.isBlank c || c.toNat == 0xFEFF

/-- Where blanks and comments are being skipped. -/
inductive Blank where
  | between
  | lineComment
  | blockComment
  deriving DecidableEq

/-- What follows blanks and comments: the text, whether a line break was among
them, and whether all comments were closed. -/
structure Gap where
  rest : List Char
  newline : Bool
  closed : Bool

/-- Skip blanks and comments. -/
def skip : Blank → Bool → List Char → Gap
  | .blockComment, newline, [] => ⟨[], newline, false⟩
  | _, newline, [] => ⟨[], newline, true⟩
  | .lineComment, newline, c :: rest =>
      if isLineBreak c then skip .between true rest else skip .lineComment newline rest
  | .blockComment, newline, '*' :: '/' :: rest => skip .between newline rest
  | .blockComment, newline, c :: rest =>
      skip .blockComment (newline || isLineBreak c) rest
  | .between, newline, '/' :: '/' :: rest => skip .lineComment newline rest
  | .between, newline, '/' :: '*' :: rest => skip .blockComment newline rest
  | .between, newline, c :: rest =>
      if isSpace c || isLineBreak c then skip .between (newline || isLineBreak c) rest
      else ⟨c :: rest, newline, true⟩

/-- The number written by hexadecimal digits, if there is at least one and nothing
else. -/
def hexNumber? (digits : List Char) : Option Nat :=
  if digits = [] then none
  else
    digits.foldlM (fun value c => (Text.hexDigit? c).map fun digit => value * 16 + digit) 0

/-- A fixed number of hexadecimal digits. -/
def hexDigits? (count : Nat) (text : List Char) : Option (Nat × List Char) :=
  let digits := text.take count
  if digits.length = count then (hexNumber? digits).map fun n => (n, text.drop count)
  else none

/-- The code point of an escape after `\u`. -/
def codePoint? (text : List Char) : Option (Nat × List Char) :=
  match text with
  | '{' :: rest =>
      let digits := rest.takeWhile (· ≠ '}')
      match rest.drop digits.length with
      | '}' :: after =>
          ((hexNumber? digits).filter (· ≤ 0x10FFFF)).map fun n => (n, after)
      | _ => none
  | rest => hexDigits? 4 rest

/-- A name: its characters, whether any was escaped, and the rest; `none` if an
escape is no letter of a name. -/
def readName : Nat → Bool → List Char → Bool → List Char →
    Option (List Char × Bool × List Char)
  | 0, _, read, escaped, text => some (read.reverse, escaped, text)
  | fuel + 1, first, read, escaped, text =>
      let fits (c : Char) : Bool :=
        if first then Text.startsIdentifier c else Text.continuesIdentifier c
      match text with
      | '\\' :: 'u' :: rest =>
          match codePoint? rest with
          | some (n, rest) =>
              let c := Char.ofNat n
              if fits c then readName fuel false (c :: read) true rest else none
          | none => none
      | '\\' :: _ => none
      | c :: rest =>
          if fits c then readName fuel false (c :: read) escaped rest
          else some (read.reverse, escaped, c :: rest)
      | [] => some (read.reverse, escaped, [])

/-- Words that an escape cannot spell. -/
def reservedWords : List String :=
  ["break", "case", "catch", "class", "const", "continue", "debugger", "default",
   "delete", "do", "else", "enum", "export", "extends", "false", "finally", "for",
   "function", "if", "import", "in", "instanceof", "new", "null", "return", "super",
   "switch", "this", "throw", "true", "try", "typeof", "var", "void", "while", "with",
   "await", "yield", "let", "static", "implements", "interface", "package", "private",
   "protected", "public"]

/-- Code points with surrogate pairs joined; `none` if half of a pair is left. -/
def joinSurrogates : List Nat → Option (List Char)
  | [] => some []
  | [n] => if 0xD800 ≤ n ∧ n ≤ 0xDFFF then none else some [Char.ofNat n]
  | n :: m :: rest =>
      if 0xD800 ≤ n ∧ n ≤ 0xDBFF then
        if 0xDC00 ≤ m ∧ m ≤ 0xDFFF then
          (joinSurrogates rest).map
            (Char.ofNat (0x10000 + (n - 0xD800) * 0x400 + (m - 0xDC00)) :: ·)
        else none
      else if 0xDC00 ≤ n ∧ n ≤ 0xDFFF then none
      else (joinSurrogates (m :: rest)).map (Char.ofNat n :: ·)

/-- The code points of an escape after its backslash, and the rest. -/
def readEscape (text : List Char) : Option (List Nat × List Char) :=
  match text with
  | [] => none
  | 'n' :: rest => some ([0xA], rest)
  | 't' :: rest => some ([0x9], rest)
  | 'r' :: rest => some ([0xD], rest)
  | 'b' :: rest => some ([0x8], rest)
  | 'f' :: rest => some ([0xC], rest)
  | 'v' :: rest => some ([0xB], rest)
  | 'x' :: rest => (hexDigits? 2 rest).map fun (n, rest) => ([n], rest)
  | 'u' :: rest => (codePoint? rest).map fun (n, rest) => ([n], rest)
  | '\r' :: '\n' :: rest => some ([], rest)
  | c :: rest =>
      if isLineBreak c then some ([], rest)
      else if '0' ≤ c ∧ c ≤ '7' then
        let isOctal (d : Char) : Bool := '0' ≤ d && d ≤ '7'
        let more := if c ≤ '3' then 2 else 1
        let digits := c :: (rest.take more).takeWhile isOctal
        let value := digits.foldl (fun n d => n * 8 + (d.toNat - '0'.toNat)) 0
        some ([value], rest.drop (digits.length - 1))
      else some ([c.toNat], rest)

/-- The code points of a string up to its closing quote, and the rest. -/
def readString (quote : Char) : Nat → List Nat → List Char → Option (List Nat × List Char)
  | 0, _, _ => none
  | _ + 1, _, [] => none
  | fuel + 1, read, c :: rest =>
      if c = quote then some (read.reverse, rest)
      else if c = '\\' then
        (readEscape rest).bind fun (codes, rest) =>
          readString quote fuel (codes.reverse ++ read) rest
      else if c = '\n' ∨ c = '\r' then none
      else readString quote fuel (c.toNat :: read) rest

/-- The text after digits and the separators between them. -/
def dropDigits (isDigit : Char → Bool) (text : List Char) : List Char :=
  text.dropWhile fun c => isDigit c || c == '_'

/-- The text after the digits that follow a base letter; there must be one. -/
def basedDigits? (isDigit : Char → Bool) (text : List Char) : Option (List Char) :=
  let rest := dropDigits isDigit text
  if (text.take (text.length - rest.length)).any isDigit then
    match rest with
    | 'n' :: rest => some rest
    | rest => some rest
  else none

/-- The text after an exponent, if one follows. -/
def exponent? (text : List Char) : Option (List Char) :=
  let digits (rest : List Char) : Option (List Char) :=
    match rest with
    | c :: _ => if c.isDigit then some (dropDigits Char.isDigit rest) else none
    | [] => none
  let signed (rest : List Char) : Option (List Char) :=
    match rest with
    | '+' :: rest => digits rest
    | '-' :: rest => digits rest
    | rest => digits rest
  match text with
  | 'e' :: rest => signed rest
  | 'E' :: rest => signed rest
  | rest => some rest

/-- Whether digits are an octal number without a base letter, which has no fraction. -/
def isOldOctal (digits : List Char) : Bool :=
  digits.head? == some '0' && digits.length > 1 &&
    digits.all fun c => c != '8' && c != '9'

/-- The text after a number. -/
def readNumber (text : List Char) : Option (List Char) :=
  match text with
  | '0' :: 'x' :: rest => basedDigits? (fun c => (Text.hexDigit? c).isSome) rest
  | '0' :: 'X' :: rest => basedDigits? (fun c => (Text.hexDigit? c).isSome) rest
  | '0' :: 'o' :: rest => basedDigits? (fun c => '0' ≤ c && c ≤ '7') rest
  | '0' :: 'O' :: rest => basedDigits? (fun c => '0' ≤ c && c ≤ '7') rest
  | '0' :: 'b' :: rest => basedDigits? (fun c => c == '0' || c == '1') rest
  | '0' :: 'B' :: rest => basedDigits? (fun c => c == '0' || c == '1') rest
  | _ =>
      match dropDigits Char.isDigit text with
      | 'n' :: rest => some rest
      | rest =>
          if isOldOctal (text.take (text.length - rest.length)) then some rest
          else
            match rest with
            | '.' :: rest => exponent? (dropDigits Char.isDigit rest)
            | rest => exponent? rest

/-- The punctuators, longer ones before their beginnings.  A closing angle bracket
always stands alone. -/
def punctuators : List String :=
  ["...", "===", "!==", "**=", "<<=", "&&=", "||=", "??=",
   "=>", "==", "!=", "<=", "<<", "++", "--", "&&", "||", "??", "?.", "**",
   "+=", "-=", "*=", "/=", "%=", "&=", "|=", "^=",
   "\x7b", "\x7d", "(", ")", "[", "]", ";", ",", "<", ">", "+", "-", "*", "/", "%", "&",
   "|", "^", "!", "~", "?", ":", "=", ".", "@", "\x60"]

/-- The punctuator a text begins with.  `?.` before a digit is a question mark. -/
def punctuator? (text : List Char) : Option String :=
  match text with
  | '?' :: '.' :: c :: _ =>
      if c.isDigit then some "?" else some "?."
  | _ => punctuators.find? fun p => p.toList.isPrefixOf text

/-- Whether a text goes on with a letter of a name. -/
def startsName (text : List Char) : Bool :=
  match text with
  | [] => false
  | c :: _ => Text.startsIdentifier c || c == '\\'

/-- The token at the beginning of a text that starts with none of the blanks, and
the rest.  `size` bounds the length of the text. -/
def readToken (size : Nat) (text : List Char) : Token × List Char :=
  match text with
  | [] => (.eof, [])
  | c :: rest =>
      if c = '"' ∨ c = '\'' then
        match readString c (size + 1) [] rest with
        | some (codes, rest) =>
            (.string ((joinSurrogates codes).map String.ofList), rest)
        | none => (.bad, rest)
      else if c.isDigit ∨ (c = '.' ∧ (rest.head?.any Char.isDigit)) then
        match readNumber text with
        | some rest => if startsName rest then (.bad, rest) else (.number, rest)
        | none => (.bad, rest)
      else if c = '#' then
        if startsName rest then
          match readName (size + 1) true [] false rest with
          | some (_, _, rest) => (.privateName, rest)
          | none => (.bad, rest)
        else (.bad, rest)
      else if startsName text then
        match readName (size + 1) true [] false text with
        | some (name, escaped, rest) =>
            let name := String.ofList name
            if escaped ∧ reservedWords.contains name then (.bad, rest)
            else (.word name escaped, rest)
        | none => (.bad, rest)
      else
        match punctuator? text with
        | some p => (.punct p, text.drop p.length)
        | none => (.bad, rest)

/-- The next token of a text.  Comments in the manner of markup (`<!--`, and `-->`
at the beginning of a line) end with the line; the token after one counts from the
comment on.  `fuel` exceeds the number of such comments. -/
def nextFrom (size : Nat) : Nat → Option (List Char) → Bool → List Char → Lexeme
  | 0, _, newline, text => ⟨.bad, newline, text, text⟩
  | fuel + 1, start, newline, text =>
      let gap := skip .between newline text
      let start := start.getD gap.rest
      match gap.rest, gap.newline with
      | '<' :: '!' :: '-' :: '-' :: rest, newline =>
          let gap := skip .lineComment newline rest
          nextFrom size fuel (some start) gap.newline gap.rest
      | '-' :: '-' :: '>' :: rest, true =>
          let gap := skip .lineComment true rest
          nextFrom size fuel (some start) gap.newline gap.rest
      | rest, newline =>
          let (token, after) := readToken size rest
          ⟨if gap.closed then token else .bad, newline, start, after⟩

/-- The next token of a text of at most `size` characters.  `newline` says whether a
line begins there. -/
def next (size : Nat) (newline : Bool) (text : List Char) : Lexeme :=
  nextFrom size (size + 1) none newline text

/-- The text without a first line that begins with `#!`. -/
def skipInterpreterLine (text : List Char) : List Char :=
  match text with
  | '#' :: '!' :: _ => text.dropWhile fun c => !isLineBreak c
  | _ => text

/-- The rest of a regular expression after its opening slash, flags included. -/
def readRegex (inClass : Bool) : List Char → Option (List Char)
  | [] => none
  | '\\' :: c :: rest => if isLineBreak c then none else readRegex inClass rest
  | c :: rest =>
      if isLineBreak c then none
      else if c = '[' then readRegex true rest
      else if c = ']' then readRegex false rest
      else if c = '/' ∧ !inClass then some (rest.dropWhile Text.continuesIdentifier)
      else readRegex inClass rest

/-- A piece of a template: whether it ends the template or a substitution follows,
whether its escapes are valid, and the rest after the backtick or brace. -/
structure Piece where
  final : Bool
  valid : Bool
  rest : List Char

/-- A piece of a template. -/
def readPiece : Nat → Bool → List Char → Option Piece
  | 0, _, _ => none
  | _ + 1, _, [] => none
  | _ + 1, valid, '\x60' :: rest => some ⟨true, valid, rest⟩
  | _ + 1, valid, '$' :: '{' :: rest => some ⟨false, valid, rest⟩
  | fuel + 1, valid, '\\' :: rest =>
      match rest with
      | [] => none
      | c :: after =>
          let isOctal := '0' ≤ c ∧ c ≤ '9' ∧ !(c = '0' ∧ !(after.head?.any Char.isDigit))
          match readEscape rest with
          | some (_, rest) => readPiece fuel (valid && !isOctal) rest
          | none => readPiece fuel false after
  | fuel + 1, valid, _ :: rest => readPiece fuel valid rest

end Lexeme
end Phrasebook.Source
