import Phrasebook.Source.Grammar.Classes
import Phrasebook.Source.Grammar.Literals
import Phrasebook.Source.Grammar.Parens

/-!
# Primary expressions

Names, literals, functions, classes and parentheses.
-/

namespace Phrasebook.Source.Grammar

open Recogniser

/-- An asynchronous arrow function with type parameters, from these on. -/
def genericAsyncArrow (rules : Rules) : Recogniser Node := do
  let typeParameters ← typeParameters rules
  let parameters ← parameterList rules
  let result ← resultType? rules
  expect "=>"
  return arrowOf parameters (← arrowBody rules true) (typeParameters ++ result)

/-- An expression that begins with `async` as more than a name, if one does.
`mayBeArrow` says whether an arrow function may stand here. -/
def asyncExpression? (rules : Rules) (mayBeArrow : Bool) : Recogniser (Option Node) := do
  let start ← here
  let next ← peek
  if !(← isWord "async") then return none
  else if isNamed next.token "function" && !next.newline then
    advance
    return some (← functionFrom rules .optional true)
  else
    let generic ←
      if mayBeArrow && next.token == .punct "<" then
        attempt do
          advance
          genericAsyncArrow rules
      else pure none
    match generic with
    | some arrow => return some arrow
    | none =>
        if mayBeArrow && next.token == .punct "(" && !next.newline then
          advance
          return some (← asyncCallOrArrow rules start)
        else return none

/-- A name, or an arrow function that begins with its only parameter.  Before the `of`
of a loop `async` is a name. -/
def nameOrArrow (rules : Rules) (name : String) (mayBeArrow : Bool) :
    Recogniser Node := do
  advance
  let current ← token
  let next ← peek
  let beforeOf := isNamed current "of" && next.token != .punct "=>"
  if mayBeArrow && name == "async" && !(← afterNewline) && isReference current &&
      !beforeOf then
    let parameter ← rules.binding false
    let isAs := match parameter with
      | .ident "as" => true
      | _ => false
    if isAs && !(← isPunct "=>") then
      return .node .typeCast [.ident name, typeOf [← rules.type]]
    else
      expect "=>"
      return arrowOf [parameter] (← arrowBody rules true) []
  else if ← eatIf (mayBeArrow && !(← afterNewline)) "=>" then
    return arrowOf [.ident name] (← arrowBody rules false) []
  else return .ident name

/-- An expression that begins with a word. -/
def wordExpression (rules : Rules) (name : String) (mayBeArrow : Bool) :
    Recogniser Node := do
  match name with
  | "this" => do advance; return .leaf .this
  | "null" => do advance; return .leaf .literal
  | "true" => do advance; return .leaf .literal
  | "false" => do advance; return .leaf .literal
  | "function" => functionFrom rules .optional false
  | "class" => classFrom rules false
  | _ => do
      match ← asyncExpression? rules mayBeArrow with
      | some node => return node
      | none =>
          if isReference (← token) then nameOrArrow rules name mayBeArrow else refuse

/-- A primary expression. -/
def primary (rules : Rules) : Recogniser Node := do
  let mayBeArrow ← mayBeArrow
  match ← token with
  | .word name _ => wordExpression rules name mayBeArrow
  | .privateName => do advance; return .leaf .privateName
  | .number => do advance; return .leaf .literal
  | .string value => do advance; return .string value
  | .punct "(" => parenOrArrow rules mayBeArrow
  | .punct "[" => do advance; arrayLiteral rules
  | .punct "\x7b" => do advance; objectLiteral rules
  | .punct "\x60" => template rules false
  | .punct "/" => regularExpression
  | .punct "/=" => regularExpression
  | _ => refuse

end Phrasebook.Source.Grammar
