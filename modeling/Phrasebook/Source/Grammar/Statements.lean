import Phrasebook.Source.Grammar.Declarations
import Phrasebook.Source.Grammar.Expressions

/-!
# Statements
-/

namespace Phrasebook.Source.Grammar

open Recogniser

/-- A statement node. -/
def statementOf (children : List Node) : Node :=
  .node .statement children

/-- An expression in which `in` is an operator. -/
def freeExpression (rules : Rules) : Recogniser Node :=
  within (fun s => { s with allowIn := true }) (expression rules)

/-- An expression in parentheses. -/
def condition (rules : Rules) : Recogniser Node := do
  expect "("
  let node ← freeExpression rules
  expect ")"
  return node

/-- A jump to a label, after its word. -/
def jump : Recogniser Node := do
  if ← eatSemicolon then return statementOf []
  else
    require (isBindable (← token))
    advance
    expectSemicolon
    return statementOf []

/-- A loop with its condition at the end, which is visited first. -/
def doStatement (rules : Rules) : Recogniser Node := do
  let body ← rules.statement false
  expectWord "while"
  let test ← condition rules
  let _ ← eatSemicolon
  return .node .doLoop [test, body]

/-- A branch after its condition. -/
def ifStatement (rules : Rules) : Recogniser Node := do
  let test ← condition rules
  let whenTrue ← rules.statement false
  let whenFalse ← if ← eatWord "else" then pure [← rules.statement false] else pure []
  return statementOf (test :: whenTrue :: whenFalse)

/-- The statements of a case, up to the next one. -/
def caseBody (rules : Rules) : Recogniser (List Node) :=
  iterate [] fun read => do
    if (← isAnyWord ["case", "default"]) || (← isPunct "\x7d") || (← atEnd) then
      return .inr read.reverse
    else return .inl ((← rules.statement true) :: read)

/-- A choice among cases, after its word. -/
def switchStatement (rules : Rules) : Recogniser Node := do
  let value ← condition rules
  expect "\x7b"
  let cases ← readUntil "\x7d" fun read => do
    if ← eatWord "case" then
      let test ← freeExpression rules
      expect ":"
      return statementOf (test :: (← caseBody rules)) :: read
    else
      expectWord "default"
      expect ":"
      return statementOf (← caseBody rules) :: read
  return statementOf (value :: cases)

/-- A result of a function, after its word. -/
def returnStatement (rules : Rules) : Recogniser Node := do
  if ← eatSemicolon then return statementOf []
  else
    let value ← freeExpression rules
    expectSemicolon
    return statementOf [value]

/-- A raised value, which begins on the line of its word. -/
def throwStatement (rules : Rules) : Recogniser Node := do
  require !(← afterNewline)
  let value ← freeExpression rules
  expectSemicolon
  return statementOf [value]

/-- What handles a raised value, after its word. -/
def catchClause (rules : Rules) : Recogniser Node := do
  let parameter ←
    if ← eat "(" then do
      let pattern ← rules.binding false
      let type ← annotation? rules
      expect ")"
      pure [pattern, typeOf type]
    else pure []
  return statementOf (parameter ++ [← block rules])

/-- What handles and what follows a block in any case. -/
def handlers (rules : Rules) : Recogniser (List Node) := do
  let catching ← if ← eatWord "catch" then pure [← catchClause rules] else pure []
  let final ← if ← eatWord "finally" then pure [← block rules] else pure []
  return catching ++ final

/-- The rest of the head of a loop after its first semicolon. -/
def countingHead (rules : Rules) (first : List Node) : Recogniser (List Node) := do
  let test ← if ← eat ";" then pure []
    else do
      let test ← freeExpression rules
      expect ";"
      pure [test]
  let update ← if ← isPunct ")" then pure [] else pure [← freeExpression rules]
  return first ++ test ++ update

/-- The rest of the head of a loop over the items of a value.  `needsOf` excludes the
loops over names. -/
def itemsHead (rules : Rules) (needsOf : Bool) (target : Node) :
    Recogniser (List Node) := do
  if ← eatWord "of" then
    return [target, ← within (fun s => { s with allowIn := true }) (assignment rules)]
  else
    require !needsOf
    expectWord "in"
    return [target, ← freeExpression rules]

/-- Whether the declaration of a resource begins here. -/
def startsUsing : Recogniser Bool := do
  let next ← peek
  return (← isWord "using") && isBindable next.token && !next.newline

/-- The head of a loop that declares variables, after their word. -/
def declaringHead (rules : Rules) (needsOf : Bool) (word : VariableWord) :
    Recogniser (List Node) := do
  let declared := statementOf (← declaredVariables rules word true)
  if ← isAnyWord ["of", "in"] then itemsHead rules needsOf declared
  else
    require !needsOf
    expect ";"
    countingHead rules [declared]

/-- Whether a resource is declared for each item of a value. -/
def startsUsingOf : Recogniser Bool :=
  lookAhead do
    let _ ← eatWord "await"
    require (← startsUsing)
    advance
    require !(← isWord "of")
    advance
    require (← isWord "of")

/-- The head of a loop between its parentheses. -/
def loopHead (rules : Rules) (needsOf : Bool) : Recogniser (List Node) := do
  match ← variableWord? with
  | some word => do
      advance
      declaringHead rules needsOf word
  | none =>
      if ← startsUsingOf then
        let _ ← eatWord "await"
        advance
        declaringHead rules needsOf .using
      else if ← isPunct ";" then
        require !needsOf
        advance
        countingHead rules []
      else
        let first ← within (fun s => { s with allowIn := false }) (expression rules)
        if ← isAnyWord ["of", "in"] then
          let target :=
            if first.isLiteralPattern then first.asPattern .assignment else some first
          match target with
          | some target => itemsHead rules needsOf target
          | none => refuse
        else
          require !needsOf
          expect ";"
          countingHead rules [first]

/-- A loop after its word. -/
def forStatement (rules : Rules) : Recogniser Node := do
  let isAwait ← eatWord "await"
  expect "("
  let head ← loopHead rules isAwait
  expect ")"
  return statementOf (head ++ [← rules.statement false])

/-- A statement that begins with an identifier, after this. -/
def afterIdentifier? (rules : Rules) (name : String) : Recogniser (Option Node) := do
  if ← eat ":" then return some (← rules.statement false)
  else
    match name with
    | "declare" => ambientDeclaration? rules
    | "global" =>
        if ← isPunct "\x7b" then return some (← moduleBlock rules) else return none
    | word => typeDeclaration? rules word false

/-- An expression as a statement, a labelled statement, or a declaration that begins
like an expression. -/
def expressionStatement (rules : Rules) : Recogniser Node := do
  let node ← freeExpression rules
  let declared ← match node with
    | .ident name => afterIdentifier? rules name
    | _ => pure none
  match declared with
  | some statement => return statement
  | none =>
      if ← eatSemicolon then return statementOf [node]
      else
        require (← atOperatorSign)
        return statementOf [← operatorsAfter rules node]

/-- A declaration of resources after its word. -/
def usingStatement (rules : Rules) : Recogniser Node := do
  return statementOf (← declaredVariables rules .using false)

/-- A statement that begins with `await`, where declarations are allowed. -/
def awaitStatement (rules : Rules) : Recogniser Node := do
  let next ← peek
  if isNamed next.token "using" then
    let using? ← attempt do
      advance
      require (← startsUsing)
      advance
      usingStatement rules
    match using? with
    | some statement => return statement
    | none => awaitOperand
  else awaitOperand
where
  awaitOperand : Recogniser Node :=
    within (fun s => { s with allowIn := true }) do
      let operand ← awaitExpression rules
      let node ← operatorsAfter rules operand
      let _ ← eatSemicolon
      return statementOf [node]

/-- A statement that begins with `import`: an expression. -/
def importStatement (rules : Rules) : Recogniser Node := do
  let next ← peek
  require (next.token == .punct "(" || next.token == .punct ".")
  let node ← freeExpression rules
  let _ ← eatSemicolon
  return statementOf [node]

/-- A statement that begins with a keyword of its own, or `none`. -/
def keywordStatement? (rules : Rules) (name : String) : Recogniser (Option Node) := do
  match name with
  | "break" => do advance; return some (← jump)
  | "continue" => do advance; return some (← jump)
  | "debugger" => do advance; expectSemicolon; return some (statementOf [])
  | "do" => do advance; return some (← doStatement rules)
  | "for" => do advance; return some (← forStatement rules)
  | "function" => return some (← functionFrom rules .required false)
  | "class" => return some (← classFrom rules true)
  | "if" => do advance; return some (← ifStatement rules)
  | "return" => do advance; return some (← returnStatement rules)
  | "switch" => do advance; return some (← switchStatement rules)
  | "throw" => do advance; return some (← throwStatement rules)
  | "catch" => do
      let _ ← recover (some <$> handlers rules) none
      return some (statementOf [])
  | "finally" => do
      let _ ← recover (some <$> handlers rules) none
      return some (statementOf [])
  | "try" => do
      advance
      let body ← block rules
      return some (statementOf (body :: (← handlers rules)))
  | "with" => do
      advance
      let object ← condition rules
      return some (statementOf [object, ← rules.statement false])
  | "while" => do
      advance
      let test ← condition rules
      return some (statementOf [test, ← rules.statement false])
  | "var" => do advance; return some (← variableStatement rules .var)
  | "import" => return some (← importStatement rules)
  | "export" => refuse
  | "enum" => do advance; return some (← enumeration rules)
  | "interface" => do advance; return some (← interface rules)
  | _ => return none

/-- A statement that begins with a keyword of its own here, or `none`. -/
def keywordHere? (rules : Rules) : Recogniser (Option Node) := do
  match ← token with
  | .word name false => keywordStatement? rules name
  | _ => return none

/-- A declaration that is no statement of its own, if one may stand here and begins
here. -/
def scopedDeclaration? (rules : Rules) (mayDeclare : Bool) : Recogniser (Option Node) := do
  if !mayDeclare then return none
  else if ← isWord "await" then return some (← awaitStatement rules)
  else if ← startsUsing then
    advance
    return some (← usingStatement rules)
  else
    match ← variableWord? with
    | some word => do
        advance
        return some (← variableStatement rules word)
    | none => return none

/-- A statement; `mayDeclare` says whether it may be a declaration. -/
def statement (rules : Rules) (mayDeclare : Bool) : Recogniser Node := do
  let next ← peek
  if (← isWord "const") && isNamed next.token "enum" then
    advance
    advance
    enumeration rules
  else
    match ← scopedDeclaration? rules mayDeclare with
    | some node => return node
    | none =>
        match ← keywordHere? rules with
        | some node => return node
        | none =>
            if ← isPunct "\x7b" then block rules
            else if ← eat ";" then return statementOf []
            else if ← startsAsyncFunction then
              advance
              functionFrom rules .required true
            else expressionStatement rules

end Phrasebook.Source.Grammar
