import Phrasebook.Source.Grammar.Patterns

/-!
# Blocks and functions

A function's parts are visited in the order parameters, body, type parameters,
result.
-/

namespace Phrasebook.Source.Grammar

open Recogniser

/-- Statements in braces. -/
def block (rules : Rules) : Recogniser Node := do
  expect "\x7b"
  let statements ← readUntil "\x7d" fun read => return (← rules.statement true) :: read
  return .node .statement statements

/-- The surroundings inside a function. -/
def insideFunction (isAsync isGenerator : Bool) (outside : Surroundings) : Surroundings :=
  { outside with
    inAsync := isAsync
    inGenerator := isGenerator
    allowIn := true
    inConditional := false
    colonExpected := false
    conditionalTypes := true }

/-- The body of a function; a declaration ends without one. -/
def functionBody? (rules : Rules) : Recogniser (List Node) := do
  if ← isPunct "\x7b" then return [← block rules]
  else
    expectSemicolon
    return []

/-- Parameters in parentheses. -/
def parameterList (rules : Rules) : Recogniser (List Node) := do
  expect "("
  let parameters ← within (fun s => { s with inGenerator := false }) rules.parameters
  expect ")"
  return parameters

/-- The result type after a colon, if there is one. -/
def resultType? (rules : Rules) : Recogniser (List Node) := do
  if ← eat ":" then return [← returnType rules] else return []

/-- What follows the name of a function: its parameters and its body. -/
def functionTail (rules : Rules) (isAsync isGenerator : Bool) : Recogniser Node :=
  within (insideFunction isAsync isGenerator) do
    let typeParameters ← typeParameters? rules
    let parameters ← parameterList rules
    let result ← resultType? rules
    let body ← functionBody? rules
    return .node .function (parameters ++ body ++ [typeOf (typeParameters ++ result)])

/-- How the name of a function or a class may stand. -/
inductive Naming where
  | required
  | optional
  deriving DecidableEq

/-- The name of a function or class. -/
def declaredName (rules : Rules) (naming : Naming) (forbidLet : Bool) :
    Recogniser Unit := do
  let current ← token
  if naming = .required || isReference current || isNamed current "this" ||
      isNamed current "yield" then
    require (isAnyName current)
    let _ ← rules.binding forbidLet
  else pure ()

/-- A function after `async`, from its keyword on. -/
def functionFrom (rules : Rules) (naming : Naming) (isAsync : Bool) :
    Recogniser Node := do
  expectWord "function"
  let isGenerator ← eat "*"
  declaredName rules naming false
  functionTail rules isAsync isGenerator

/-- Whether an asynchronous function begins here. -/
def startsAsyncFunction : Recogniser Bool := do
  let next ← peek
  return (← isWord "async") && isNamed next.token "function" && !next.newline

/-- The body of an arrow function: a block or an expression. -/
def arrowBody (rules : Rules) (isAsync : Bool) : Recogniser Node := do
  if ← isPunct "\x7b" then within (insideFunction isAsync false) (block rules)
  else
    within (fun s => { s with inAsync := isAsync, inGenerator := false }) rules.assignment

/-- An arrow function from its parts. -/
def arrowOf (parameters : List Node) (body : Node) (types : List Node) : Node :=
  .node .arrow (parameters ++ [body, typeOf types])

end Phrasebook.Source.Grammar
