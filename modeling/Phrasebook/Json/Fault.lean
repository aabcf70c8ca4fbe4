/-!
# Faults in JSON text

A fault is a cause together with what was left of the text when it was noticed.
Its position is computed afterwards from the two texts, so that reading itself
keeps no counters.  Lines and columns count bytes.
-/

namespace Phrasebook.Json

/-- What was found where a value of another type was asked for. -/
inductive Found where
  | null
  | bool (value : Bool)
  | integer (text : String)
  | double (text : String)
  | string (quoted : String)
  | sequence
  | map
  deriving DecidableEq, Repr

/-- The words for what was found. -/
def Found.text : Found → String
  | .null => "null"
  | .bool true => "boolean \x60true\x60"
  | .bool false => "boolean \x60false\x60"
  | .integer text => "integer \x60" ++ text ++ "\x60"
  | .double text => "floating point \x60" ++ text ++ "\x60"
  | .string quoted => "string " ++ quoted
  | .sequence => "sequence"
  | .map => "map"

/-- Why a text is refused. -/
inductive Cause where
  | eofList
  | eofObject
  | eofString
  | eofValue
  | expectedColon
  | expectedListCommaOrEnd
  | expectedObjectCommaOrEnd
  | expectedIdent
  | expectedValue
  | invalidEscape
  | invalidNumber
  | numberOutOfRange
  | controlCharacter
  | keyMustBeString
  | loneSurrogate
  | unexpectedEndOfEscape
  | trailingComma
  | trailingCharacters
  | recursionLimit
  | invalidType (found : Found) (expected : String)
  | duplicateField (name : String)
  deriving DecidableEq, Repr

/-- The words for a cause. -/
def Cause.text : Cause → String
  | .eofList => "EOF while parsing a list"
  | .eofObject => "EOF while parsing an object"
  | .eofString => "EOF while parsing a string"
  | .eofValue => "EOF while parsing a value"
  | .expectedColon => "expected \x60:\x60"
  | .expectedListCommaOrEnd => "expected \x60,\x60 or \x60]\x60"
  | .expectedObjectCommaOrEnd => "expected \x60,\x60 or \x60\x7d\x60"
  | .expectedIdent => "expected ident"
  | .expectedValue => "expected value"
  | .invalidEscape => "invalid escape"
  | .invalidNumber => "invalid number"
  | .numberOutOfRange => "number out of range"
  | .controlCharacter =>
      "control character (\\u0000-\\u001F) found while parsing a string"
  | .keyMustBeString => "key must be a string"
  | .loneSurrogate => "lone leading surrogate in hex escape"
  | .unexpectedEndOfEscape => "unexpected end of hex escape"
  | .trailingComma => "trailing comma"
  | .trailingCharacters => "trailing characters"
  | .recursionLimit => "recursion limit exceeded"
  | .invalidType found expected =>
      "invalid type: " ++ found.text ++ ", expected " ++ expected
  | .duplicateField name => "duplicate field \x60" ++ name ++ "\x60"

/-- A cause, the text left over when it was noticed, and how many bytes of that
text count as seen. -/
structure Fault where
  cause : Cause
  rest : List Char
  seen : Nat
  deriving DecidableEq, Repr

namespace Fault

/-- A fault in what has been consumed. -/
def behind (cause : Cause) (rest : List Char) : Fault :=
  ⟨cause, rest, 0⟩

/-- A fault in the next byte, which has been looked at but not consumed. -/
def ahead (cause : Cause) (rest : List Char) : Fault :=
  ⟨cause, rest, 1⟩

/-- Number of bytes of a text in UTF-8. -/
def byteLength (text : List Char) : Nat :=
  text.foldl (fun total c => total + c.utf8Size) 0

/-- Line (from one) and column (bytes since the last line break) after the first
bytes of a text. -/
def lineColumn (bytes : List UInt8) : Nat × Nat :=
  bytes.foldl
    (fun at_ byte => if byte = 10 then (at_.1 + 1, 0) else (at_.1, at_.2 + 1)) (1, 0)

/-- Line and column of a fault in the text that was read. -/
def position (fault : Fault) (text : List Char) : Nat × Nat :=
  let all := byteLength text
  let offset := min all (all - byteLength fault.rest + fault.seen)
  lineColumn ((String.ofList text).toUTF8.toList.take offset)

/-- The full message, with the position. -/
def message (fault : Fault) (text : List Char) : String :=
  let (line, column) := fault.position text
  fault.cause.text ++ " at line " ++ Nat.repr line ++ " column " ++ Nat.repr column

end Fault
end Phrasebook.Json
