import Phrasebook.Source.Cursor

/-!
# Rules of the grammar

The grammar is recursive: expressions hold functions, functions hold statements,
statements hold expressions.  The recognisers for these are gathered in one record.
Each part of the grammar is written over a record for what it contains, and the
record of a depth is built from the one below it.
-/

namespace Phrasebook.Source

/-- The recursive parts of the grammar. -/
structure Rules where
  /-- A type. -/
  type : Recogniser Node
  /-- Expressions with commas between them. -/
  expression : Recogniser Node
  /-- One expression. -/
  assignment : Recogniser Node
  /-- An operand of a binary operator. -/
  unary : Recogniser Node
  /-- An expression that can stand before an assignment sign. -/
  leftHand : Recogniser Node
  /-- A statement; the flag says whether it may be a declaration. -/
  statement : Bool → Recogniser Node
  /-- An item of a module or of a module block. -/
  moduleItem : Recogniser Node
  /-- A name or pattern that is bound; the flag forbids `let` as a name. -/
  binding : Bool → Recogniser Node
  /-- Parameters up to the closing parenthesis, which is not taken. -/
  parameters : Recogniser (List Node)
  /-- A class after its keyword; the flag asks for a name. -/
  classTail : Bool → Recogniser Node
  /-- An element of markup after its opening bracket, up to its last one, which is
  not taken. -/
  element : Recogniser Node

/-- Rules that refuse everything. -/
def Rules.none : Rules where
  type := Recogniser.refuse
  expression := Recogniser.refuse
  assignment := Recogniser.refuse
  unary := Recogniser.refuse
  leftHand := Recogniser.refuse
  statement := fun _ => Recogniser.refuse
  moduleItem := Recogniser.refuse
  binding := fun _ => Recogniser.refuse
  parameters := Recogniser.refuse
  classTail := fun _ => Recogniser.refuse
  element := Recogniser.refuse

namespace Recogniser

/-- Take a comma, unless a closing punctuator follows, which is not taken. -/
def commaBefore (close : String) : Recogniser Unit := do
  if ← isPunct close then pure () else expect ","

/-- Repeat a step up to a closing punctuator, which is taken.  A step adds what it reads
in front of what has been read. -/
def readUntil {α : Type} (close : String) (step : List α → Recogniser (List α)) :
    Recogniser (List α) :=
  iterate [] fun read => do
    if ← eat close then return .inr read.reverse
    else return .inl (← step read)

/-- Things with commas between them up to a closing punctuator, which is taken.  A
comma may precede it. -/
def listUntil (close : String) (item : Recogniser Node) : Recogniser (List Node) :=
  readUntil close fun read => do
    let node ← item
    commaBefore close
    return node :: read

/-- A modifier of some list, if the next token shows that it is one. -/
def modifier? (allowed : List String) (stopAtStaticBlock : Bool) :
    Recogniser (Option String) := do
  match ← token with
  | .word name false =>
      if !allowed.contains name then return none
      else
        let next ← peek
        if stopAtStaticBlock && name == "static" && next.token == .punct "\x7b" then
          return none
        else
          let follows := match next.token with
            | .word _ _ => true
            | .privateName => true
            | .number => true
            | .string _ => true
            | .punct text => ["[", "\x7b", "*", "..."].contains text
            | _ => false
          if follows && !next.newline then
            advance
            return some name
          else return none
  | _ => return none

/-- Take a modifier of a parameter or member, if a name or a pattern follows. -/
def eatModifier : Recogniser Unit := do
  if ← isAnyWord ["public", "protected", "private", "readonly"] then
    let next ← peek
    let follows := isAnyName next.token || next.token == .punct "\x7b" ||
      next.token == .punct "["
    if follows then
      let _ ← modifier? ["public", "protected", "private", "readonly"] false
  else pure ()

end Recogniser
end Phrasebook.Source
