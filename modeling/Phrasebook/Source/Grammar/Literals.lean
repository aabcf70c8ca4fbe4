import Phrasebook.Source.Grammar.Functions

/-!
# Array, object, template and regular expression literals
-/

namespace Phrasebook.Source.Grammar

open Recogniser

/-- An expression that may be spread. -/
def spreadable (rules : Rules) : Recogniser Node :=
  within (fun s => { s with allowIn := true }) do
    if ← eat "..." then return .node .spread [← rules.assignment] else rules.assignment

/-- The array after its opening bracket. -/
def arrayLiteral (rules : Rules) : Recogniser Node := do
  let items ← readUntil "]" fun read => do
    if ← eat "," then return Node.leaf .hole :: read
    else
      let item ← spreadable rules
      commaBefore "]"
      return item :: read
  return .node .array items

/-- Whether a member of an object goes on after its name.  Where it does not, its
value is taken to be missing. -/
def memberGoesOn (name : PropertyName) : Recogniser Bool := do
  match ← token with
  | .word _ _ => return true
  | .string _ => return true
  | .number => return true
  | .punct "\x7d" =>
      match name with
      | .name _ => return true
      | _ => return false
  | .punct text => return ["(", "[", ":", ",", "?", "=", "*", "<"].contains text
  | _ => return false

/-- A getter, setter or asynchronous method of an object after the word in front of
its name. -/
def prefixedProperty (rules : Rules) (word : String) : Recogniser Node := do
  require (["get", "set", "async"].contains word)
  let isAsync := word == "async"
  let isGenerator ← if isAsync then eat "*" else pure false
  let name ← propertyName rules
  return .node .method [name.node, ← functionTail rules isAsync isGenerator]

/-- A member of an object. -/
def objectMember (rules : Rules) : Recogniser Node := do
  if ← eat "..." then
    return .node .spread [← within (fun s => { s with allowIn := true }) rules.assignment]
  else if ← eat "*" then
    let name ← propertyName rules
    return .node .method [name.node, ← functionTail rules false true]
  else
    eatModifier
    let name ← propertyName rules
    if !(← memberGoesOn name) then return .node .property [name.node, .leaf .invalid]
    else if ← eat ":" then
      let value ← within (fun s => { s with allowIn := true }) rules.assignment
      return .node .property [name.node, value]
    else if ← isAnyPunct ["(", "<"] then
      return .node .method [name.node, ← functionTail rules false false]
    else
      match name with
      | .name text => do
          let _ ← eat "?"
          match ← initialValue? rules with
          | some value => return .node .shorthandDefault [.ident text, value]
          | none =>
              if ← isAnyPunct [",", "\x7d"] then return .node .shorthand [.ident text]
              else prefixedProperty rules text
      | _ => refuse

/-- The object after its opening brace. -/
def objectLiteral (rules : Rules) : Recogniser Node :=
  within (fun s => { s with colonExpected := false }) do
    return .node .object (← listUntil "\x7d" (objectMember rules))

/-- The substitutions of a template, whose backtick is the current token.  `tagged`
allows invalid escapes. -/
def templateParts (rules : Rules) (tagged : Bool) : Recogniser (List Node) := do
  let size ← ask Cursor.size
  iterate [] fun read => do
    match Lexeme.readPiece (size + 1) true (← ahead) with
    | none => refuse
    | some piece =>
        require (piece.valid || tagged)
        continueAfter piece.rest
        if piece.final then return .inr read.reverse
        else
          let part ← within (fun s => { s with allowIn := true }) rules.expression
          require (← isPunct "\x7d")
          return .inl (part :: read)

/-- A template. -/
def template (rules : Rules) (tagged : Bool) : Recogniser Node := do
  return .node .template (← templateParts rules tagged)

/-- A regular expression, whose first slash is the current token. -/
def regularExpression : Recogniser Node := do
  match Lexeme.readRegex false ((← here).drop 1) with
  | none => giveUp
  | some rest =>
      continueAfter rest
      return .leaf .literal

end Phrasebook.Source.Grammar
