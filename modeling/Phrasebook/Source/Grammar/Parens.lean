import Phrasebook.Source.Grammar.Operators

/-!
# Parentheses and arrow functions

After an opening parenthesis it is open whether expressions or the parameters of an
arrow function follow.  The items are read as expressions as far as possible, and are
converted when an arrow turns up behind them.
-/

namespace Phrasebook.Source.Grammar

open Recogniser

/-- An item between parentheses: whether it is spread, whether it can only be a
parameter, and its node. -/
structure ParenItem where
  isSpread : Bool
  isPattern : Bool
  node : Node

/-- The pattern an item stands for as a parameter. -/
def ParenItem.asParameter (item : ParenItem) : Option Node :=
  if item.isPattern then some item.node else item.node.asPattern .binding

/-- The parameters that items stand for.  A spread one counts only in the last
place. -/
def parametersOf : List ParenItem → Option (List Node)
  | [] => some []
  | item :: rest => do
      let pattern ← item.asParameter
      let others ← parametersOf rest
      if item.isSpread then
        if rest.isEmpty then return [.node .rest [pattern]] else return others
      else return pattern :: others

/-- An item read as an expression. -/
def expressionItem (rules : Rules) : Recogniser ParenItem := do
  let next ← peek
  let current ← token
  if isReference current then return ⟨false, false, ← assignTo rules (← binary rules)⟩
  else if current == .punct "..." && isReference next.token then
    advance
    return ⟨true, false, ← binary rules⟩
  else if ← eat "..." then return ⟨true, false, ← rules.assignment⟩
  else return ⟨false, false, ← rules.assignment⟩

/-- An item with a type or a default value, which makes it a parameter. -/
def typedItem (rules : Rules) (item : ParenItem) : Recogniser ParenItem := do
  match item.node.asPattern .binding with
  | none => refuse
  | some pattern =>
      require (item.isSpread || !pattern.isKind .invalid)
      let pattern := withType pattern (← annotation? rules)
      return { item with isPattern := true, node := withDefault pattern (← initialValue? rules) }

/-- The marks of a parameter behind an item: a question mark, a type, a default
value. -/
def markedItem (rules : Rules) (item : ParenItem) : Recogniser ParenItem := do
  let next ← peek
  let isOptional := (← isPunct "?") &&
    [.punct ",", .punct ":", .punct ")", .punct "="].contains next.token
  if isOptional then
    advance
    require item.node.isIdent
  else pure ()
  let isCondition ← eatIf (!isOptional && !item.isSpread) "?"
  let node ← if isCondition then branches rules item.node false else pure item.node
  let item := { item with node }
  if isOptional || (← isPunct ":") then typedItem rules item else return item

/-- An arrow function whose only parameter is the first of some items, if an arrow
follows.  It is visited behind the items. -/
def arrowAfterItems? (rules : Rules) (read : List ParenItem) : Recogniser (List ParenItem) := do
  if ← eat "=>" then
    match read.getLast? with
    | some first =>
        if first.node.isIdent && !first.isSpread then
          match parametersOf read.reverse with
          | some parameters =>
              let body ← arrowBody rules false
              return ⟨false, false, arrowOf [.node .restated parameters] body []⟩ :: read
          | none => refuse
        else return read
    | none => return read
  else return read

/-- The items after an opening parenthesis, with the closing one. -/
def parenItems (rules : Rules) : Recogniser (List ParenItem) :=
  within (fun s => { s with allowIn := true, colonExpected := false }) do
    readUntil ")" fun read => do
      markArrowStart true
      eatModifier
      let item ← markedItem rules (← expressionItem rules)
      let read ← arrowAfterItems? rules (item :: read)
      commaBefore ")"
      return read

/-- The rest of an arrow function after its parameters, from the arrow on, and whether
its body is a block. -/
def arrowTail (rules : Rules) (items : List ParenItem) (isAsync : Bool)
    (result : List Node) : Recogniser (Node × Bool) := do
  expect "=>"
  match parametersOf items with
  | none => refuse
  | some parameters =>
      let hasBlock ← isPunct "\x7b"
      let body ← arrowBody rules isAsync
      return (arrowOf parameters body result, hasBlock)

/-- An arrow function with a result type, where the colon before the type could also
be one of a conditional expression. -/
def arrowInConditional? (rules : Rules) (items : List ParenItem) (isAsync : Bool) :
    Recogniser (Option Node) := do
  let surroundings ← ask Cursor.surroundings
  if surroundings.inConditional && (← isPunct ":") then
    attempt do
      advance
      let result ← returnType rules
      let (arrow, _) ← arrowTail rules items isAsync [result]
      require (!surroundings.colonExpected || (← isPunct ":"))
      return arrow
  else return none

/-- A result type that an arrow follows. -/
def resultBeforeArrow? (rules : Rules) : Recogniser (Option Node) := do
  let surroundings ← ask Cursor.surroundings
  if !surroundings.colonExpected && (← isPunct ":") then
    attempt do
      advance
      let result ← returnType rules
      require (← isPunct "=>")
      return result
  else return none

/-- Expressions in parentheses that are no parameters. -/
def parenthesised (items : List ParenItem) : Recogniser Node := do
  require (!items.isEmpty)
  require (items.all fun item => !item.isPattern && !item.isSpread)
  match items with
  | [item] => return .node .paren [item.node]
  | items => return .node .paren [.node .sequence (items.map (·.node))]

/-- The arguments of a call that items stand for. -/
def argumentsOf (items : List ParenItem) : List Node :=
  items.map fun item => if item.isSpread then .node .spread [item.node] else item.node

/-- An arrow function whose body is a block, with the operators behind it. -/
def operatorsAfterBlock (rules : Rules) (arrow : Node) : Recogniser Node := do
  if ← atOperatorSign then operatorsAfter rules arrow else return arrow

/-- What follows the items of parentheses: an arrow function, if `mayBeArrow` says that one
may stand here, or what they are otherwise. -/
def arrowOr (rules : Rules) (mayBeArrow : Bool) (items : List ParenItem) (isAsync : Bool)
    (otherwise : Recogniser Node) : Recogniser Node := do
  match ← arrowInConditional? rules items isAsync with
  | some arrow => return arrow
  | none =>
      let result ← resultBeforeArrow? rules
      if result.isSome || items.any (·.isPattern) || (← isPunct "=>") then
        require (!(← afterNewline) && mayBeArrow)
        let (arrow, hasBlock) ← arrowTail rules items isAsync result.toList
        if hasBlock then operatorsAfterBlock rules arrow else return arrow
      else otherwise

/-- Parentheses or an arrow function, from the opening parenthesis on. -/
def parenOrArrow (rules : Rules) (mayBeArrow : Bool) : Recogniser Node := do
  expect "("
  let items ← parenItems rules
  arrowOr rules mayBeArrow items false (parenthesised items)

/-- A call of `async`, which begins at a place, or an asynchronous arrow function, from the
opening parenthesis on. -/
def asyncCallOrArrow (rules : Rules) (start : List Char) : Recogniser Node := do
  expect "("
  let items ← parenItems rules
  let stop ← behind
  arrowOr rules true items true
    (return .call start stop (.ident "async") (argumentsOf items) [])

end Phrasebook.Source.Grammar
