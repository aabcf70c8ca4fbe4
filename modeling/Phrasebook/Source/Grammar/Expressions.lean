import Phrasebook.Source.Grammar.LeftHand

/-!
# Expressions

Operands with signs in front or behind, assignments, and lists of expressions.
-/

namespace Phrasebook.Source.Grammar

open Recogniser

/-- A cast in angle brackets. -/
def angleCast (rules : Rules) : Recogniser Node := do
  expect "<"
  let next ← peek
  if (← isWord "const") && next.token == .punct ">" then
    advance
    expect ">"
    return .node .typeCast [← rules.unary]
  else
    let type ← within (fun s => { s with conditionalTypes := true }) rules.type
    expect ">"
    return .node .typeCast [← rules.unary, typeOf [type]]

/-- An `await` with its operand.  Before a closing bracket outside asynchronous
functions it is a name. -/
def awaitExpression (rules : Rules) : Recogniser Node := do
  expectWord "await"
  require !(← isPunct "*")
  let inAsync ← ask fun cursor => cursor.surroundings.inAsync
  if (← isAnyPunct [")", "]"]) && !inAsync then return .ident "await"
  else return .node .awaitExpression [← rules.unary]

/-- An operand of a binary operator, with its signs. -/
def unary (rules : Rules) : Recogniser Node := do
  let markup ← ask Cursor.markup
  if !markup && (← isPunct "<") then angleCast rules
  else if ← isAnyPunct ["++", "--"] then
    advance
    return .node .update [← rules.unary]
  else if (← isAnyPunct ["+", "-", "~", "!"]) ||
      (← isAnyWord ["delete", "void", "typeof"]) then
    advance
    return .node .unary [← recover rules.unary (.leaf .invalid)]
  else if ← isWord "await" then awaitExpression rules
  else
    let operand ← rules.leftHand
    if operand.isKind .arrow || (← afterNewline) then return operand
    else if ← isAnyPunct ["++", "--"] then
      advance
      return .node .update [operand]
    else return operand

/-- A `yield` with its operand, if there is one. -/
def yieldExpression (rules : Rules) : Recogniser Node := do
  expectWord "yield"
  if (← statementMayEnd) || !((← isPunct "*") || startsExpression (← token)) then
    return .leaf .yieldExpression
  else
    let _ ← eat "*"
    return .node .yieldExpression [← rules.assignment]

/-- One expression, without a type parameter list in front. -/
def plainAssignment (rules : Rules) : Recogniser Node := do
  let inGenerator ← ask fun cursor => cursor.surroundings.inGenerator
  if inGenerator && (← isWord "yield") then yieldExpression rules
  else
    markArrowStart ((← isPunct "(") || isAnyName (← token))
    let target ← conditional rules
    let isFinal := [Kind.arrow, .conditional, .binary, .unary, .update].any target.isKind
    if isFinal then return target else assignTo rules target

/-- Whether type parameters cannot be the beginning of an element: there are several,
a comma closes them, or one has a bound or default. -/
def unlikeElement : Recogniser Bool :=
  lookAhead do
    expect "<"
    let _ ← eatWord "const"
    let _ ← anyName
    require ((← isAnyPunct [",", "="]) || (← isWord "extends"))

/-- An arrow function with type parameters. -/
def genericArrow (rules : Rules) : Recogniser Node :=
  within (fun s => { s with colonExpected := false }) do
    let next ← peek
    require ((← isPunct "<") && isAnyName next.token)
    require (!(← ask Cursor.markup) || (← unlikeElement))
    let typeParameters ← typeParameters rules
    match ← plainAssignment rules with
    | .node .arrow children => return .node .arrow (children ++ [typeOf typeParameters])
    | _ => refuse

/-- One expression. -/
def assignment (rules : Rules) : Recogniser Node := do
  if ← isPunct "<" then
    let markup ← ask Cursor.markup
    if markup then firstOf (plainAssignment rules) (genericArrow rules)
    else
      match ← attempt (genericArrow rules) with
      | some arrow => return arrow
      | none => plainAssignment rules
  else plainAssignment rules

/-- Expressions with commas between them. -/
def expression (rules : Rules) : Recogniser Node := do
  let first ← assignment rules
  if ← isPunct "," then
    let others ← iterate [] fun read => do
      if ← eat "," then return .inl ((← rules.assignment) :: read)
      else return .inr read.reverse
    return .node .sequence (first :: others)
  else return first

end Phrasebook.Source.Grammar
