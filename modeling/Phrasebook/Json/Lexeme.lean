import Phrasebook.Json.Fault
import Phrasebook.Json.Value
import Phrasebook.Text.Hex

/-!
# Strings, numbers and blanks of JSON text

The readers here take the text after the lexeme's first character and answer
with what they read and the rest of the text.  They are shared by every reader
of JSON text, whatever it builds.
-/

namespace Phrasebook.Json

/-- What a reader answers: a value and the rest of the text, or a fault. -/
abbrev Reply (α : Type) := Except Fault (α × List Char)

namespace Lexeme

/-- The four blanks of JSON. -/
def isBlank (c : Char) : Bool :=
  c == ' ' || c == '\n' || c == '\t' || c == '\r'

/-- The text without the blanks in front. -/
def skipBlanks (text : List Char) : List Char :=
  text.dropWhile isBlank

/-- The rest of a literal word, letter by letter. -/
def word : List Char → List Char → Except Fault (List Char)
  | [], text => .ok text
  | _ :: _, [] => .error (.behind .eofValue [])
  | letter :: letters, c :: text =>
      if c = letter then word letters text
      else .error ⟨.expectedIdent, c :: text, 1⟩

/-- The value of four hexadecimal digits. -/
def hexUnit? : List Char → Option (Nat × List Char)
  | a :: b :: c :: d :: rest => do
      let a ← Text.hexDigit? a
      let b ← Text.hexDigit? b
      let c ← Text.hexDigit? c
      let d ← Text.hexDigit? d
      some (((a * 16 + b) * 16 + c) * 16 + d, rest)
  | _ => none

/-- Four hexadecimal digits, which need four bytes of text to be looked at. -/
def hexUnit (text : List Char) : Reply Nat :=
  match hexUnit? text with
  | some found => .ok found
  | none =>
      if Fault.byteLength text < 4 then .error (.behind .eofString [])
      else .error ⟨.invalidEscape, text, 4⟩

/-- The character given by UTF-16 units: after the first one, a high surrogate
must be followed by an escaped low one. -/
def unicodeEscape (text : List Char) : Except Fault (Char × List Char) := do
  let (unit, rest) ← hexUnit text
  if 0xDC00 ≤ unit ∧ unit ≤ 0xDFFF then .error (.behind .loneSurrogate rest)
  else if unit < 0xD800 ∨ 0xDBFF < unit then .ok (Char.ofNat unit, rest)
  else
    match rest with
    | [] => .error (.behind .eofString [])
    | '\\' :: [] => .error (.behind .eofString [])
    | '\\' :: 'u' :: rest =>
        let (low, rest) ← hexUnit rest
        if low < 0xDC00 ∨ 0xDFFF < low then .error (.behind .loneSurrogate rest)
        else .ok (Char.ofNat (0x10000 + (unit - 0xD800) * 0x400 + (low - 0xDC00)), rest)
    | '\\' :: rest => .error ⟨.unexpectedEndOfEscape, rest, 1⟩
    | rest => .error ⟨.unexpectedEndOfEscape, rest, 1⟩

/-- The character written after a backslash. -/
def escape : List Char → Reply Char
  | [] => .error (.behind .eofString [])
  | '"' :: rest => .ok ('"', rest)
  | '\\' :: rest => .ok ('\\', rest)
  | '/' :: rest => .ok ('/', rest)
  | 'b' :: rest => .ok ('\x08', rest)
  | 'f' :: rest => .ok ('\x0c', rest)
  | 'n' :: rest => .ok ('\n', rest)
  | 'r' :: rest => .ok ('\r', rest)
  | 't' :: rest => .ok ('\t', rest)
  | 'u' :: rest => unicodeEscape rest
  | text => .error ⟨.invalidEscape, text, 1⟩

/-- The characters of a string up to the closing quote, after those read
already. -/
def stringBody : Nat → List Char → List Char → Reply String
  | 0, _, text => .error (.behind .eofString text)
  | _ + 1, _, [] => .error (.behind .eofString [])
  | fuel + 1, read, c :: text =>
      if c = '"' then .ok (String.ofList read.reverse, text)
      else if c = '\\' then
        match escape text with
        | .error fault => .error fault
        | .ok (c, rest) => stringBody fuel (c :: read) rest
      else if c.toNat < 0x20 then .error ⟨.controlCharacter, c :: text, 1⟩
      else stringBody fuel (c :: read) text

/-- A string after its opening quote. -/
def string (text : List Char) : Reply String :=
  stringBody (text.length + 1) [] text

/-- Whether the text goes on with a digit. -/
def startsWithDigit : List Char → Bool
  | [] => false
  | c :: _ => c.isDigit

/-- Take digits into the significand while it stays below `2 ^ 64`, counting
them. -/
def absorb (significand count : Nat) : List Char → Nat × Nat × List Char
  | [] => (significand, count, [])
  | c :: text =>
      let next := significand * 10 + (c.toNat - '0'.toNat)
      if c.isDigit ∧ next < 0x10000000000000000 then absorb next (count + 1) text
      else (significand, count, c :: text)

/-- A power of ten as a double. -/
def powerOfTen (exponent : Nat) : Double :=
  (Double.ofNat? (Nat.pow 10 exponent)).getD (.zero false)

/-- `value * 10 ^ exponent`, one rounded operation per table power; `none` when
too large. -/
def scale : Nat → Double → Int → Option Double
  | 0, value, _ => some value
  | fuel + 1, value, exponent =>
      if exponent.natAbs ≤ 308 then
        if 0 ≤ exponent then value.mul? (powerOfTen exponent.natAbs)
        else value.div? (powerOfTen exponent.natAbs)
      else if value.isZero then some value
      else if 0 ≤ exponent then none
      else (value.div? (powerOfTen 308)).bind fun value => scale fuel value (exponent + 308)

/-- The answer with a magnitude, if there is one in range. -/
def signed (negative : Bool) (rest : List Char) : Option Double → Reply Number
  | some value => .ok (.double (if negative then value.neg else value), rest)
  | none => .error (.behind .numberOutOfRange rest)

/-- The double with these decimal parts. -/
def fromParts (negative : Bool) (significand : Nat) (exponent : Int)
    (rest : List Char) : Reply Number :=
  signed negative rest ((Double.ofNat? significand).bind fun value => scale 8 value exponent)

/-- Take the digits of an exponent while it fits 31 bits. -/
def exponentDigits (value : Nat) : List Char → Nat × List Char
  | [] => (value, [])
  | c :: text =>
      let next := value * 10 + (c.toNat - '0'.toNat)
      if c.isDigit ∧ next < 0x80000000 then exponentDigits next text
      else (value, c :: text)

/-- A number after the letter that starts its exponent. -/
def exponentPart (negative : Bool) (significand : Nat) (start : Int)
    (text : List Char) : Reply Number :=
  let (down, text) := match text with
    | '+' :: rest => (false, rest)
    | '-' :: rest => (true, rest)
    | rest => (false, rest)
  match text with
  | [] => .error (.behind .eofValue [])
  | c :: _ =>
      if c.isDigit then
        let (exponent, rest) := exponentDigits 0 text
        if startsWithDigit rest then
          if significand ≠ 0 ∧ !down then .error ⟨.numberOutOfRange, rest, 1⟩
          else .ok (.double (.zero negative), rest.dropWhile Char.isDigit)
        else
          fromParts negative significand
            (if down then start - exponent else start + exponent) rest
      else .error ⟨.invalidNumber, text, 1⟩

/-- A number after its decimal point. -/
def fractionPart (negative : Bool) (significand : Nat) (start : Int)
    (text : List Char) : Reply Number :=
  let (significand, count, rest) := absorb significand 0 text
  if count = 0 ∧ !startsWithDigit rest then
    match rest with
    | [] => .error (.ahead .eofValue [])
    | rest => .error (.ahead .invalidNumber rest)
  else
    let exponent := start - count
    match rest.dropWhile Char.isDigit with
    | 'e' :: rest => exponentPart negative significand exponent rest
    | 'E' :: rest => exponentPart negative significand exponent rest
    | rest => fromParts negative significand exponent rest

/-- A significand without fraction and exponent: an integer if it is in range
and is not a negative zero. -/
def integerOrDouble (negative : Bool) (significand : Nat) : Number :=
  let value : Int := if negative then -significand else significand
  if h : (-0x8000000000000000 ≤ value ∧ value < 0x10000000000000000) ∧
      ¬(negative ∧ significand = 0) then
    .integer value h.1.1 h.1.2
  else
    let value := (Double.ofNat? significand).getD (.zero false)
    .double (if negative then value.neg else value)

/-- A number after its integer digits: those beyond the first `2 ^ 64` only
count in the exponent. -/
def afterInteger (negative : Bool) (significand : Nat) (text : List Char) :
    Reply Number :=
  let dropped := (text.takeWhile Char.isDigit).length
  match text.dropWhile Char.isDigit with
  | '.' :: rest => fractionPart negative significand dropped rest
  | 'e' :: rest => exponentPart negative significand dropped rest
  | 'E' :: rest => exponentPart negative significand dropped rest
  | rest =>
      if dropped = 0 then .ok (integerOrDouble negative significand, rest)
      else fromParts negative significand dropped rest

/-- A number after its sign. -/
def number (negative : Bool) : List Char → Reply Number
  | [] => .error (.behind .eofValue [])
  | '0' :: rest =>
      if startsWithDigit rest then .error (.ahead .invalidNumber rest)
      else afterInteger negative 0 rest
  | text =>
      if startsWithDigit text then
        let (significand, _, rest) := absorb 0 0 text
        afterInteger negative significand rest
      else .error ⟨.invalidNumber, text, 1⟩

end Lexeme
end Phrasebook.Json
