/-!
# Translation calls

A call of a translation function is a literal key, or, when its first argument
is no string literal, the source text of the call.
-/

namespace Phrasebook

/-- A place in a source file. -/
structure Location where
  file : String
  line : Nat
  column : Nat
  deriving DecidableEq, Repr, Inhabited

/-- Order by file, then line, then column. -/
def Location.le (a b : Location) : Bool :=
  if a.file = b.file then
    if a.line = b.line then a.column ≤ b.column else a.line < b.line
  else a.file < b.file

/-- A place in a source file with the text of its line. -/
structure Context where
  location : Location
  sourceLine : String
  deriving DecidableEq, Repr, Inhabited

/-- What a call passes as its key: a nonempty literal, or anything else. -/
inductive CallKey where
  | literal (key : String)
  | unknown (signature : String)
  deriving DecidableEq, Repr

/-- A translation call in a source file. -/
structure CallSite where
  context : Context
  key : CallKey
  deriving DecidableEq, Repr

/-- A call without a literal key; `expanded` if known keys took its place. -/
structure UnknownCall where
  context : Context
  signature : String
  expanded : Bool
  deriving DecidableEq, Repr

end Phrasebook
