import Phrasebook.Source.Grammar.Functions

/-!
# Operators between operands

Binary operators bind by precedence; casts bind like comparisons.  Where an operand is
missing before an operator, the operator is read all the same.
-/

namespace Phrasebook.Source.Grammar

open Recogniser

/-- How strongly a binary operator binds. -/
def precedence? (operator : String) : Option Nat :=
  let levels : List (List String) :=
    [["||", "??"], ["&&"], ["|"], ["^"], ["&"], ["==", "!=", "===", "!=="],
     ["<", "<=", ">", ">=", "instanceof", "in"], ["<<", ">>", ">>>"], ["+", "-"],
     ["*", "/", "%"], ["**"]]
  (levels.findIdx? (·.contains operator)).map (· + 1)

/-- The precedence of casts. -/
def castPrecedence : Nat := 7

/-- The operators that assign a computed value. -/
def compoundAssignments : List String :=
  ["+=", "-=", "*=", "/=", "%=", "**=", "<<=", ">>=", ">>>=", "&=", "|=", "^=", "&&=",
   "||=", "??="]

/-- The operators that begin with a closing angle bracket, longer ones first. -/
def angleOperators : List String :=
  [">>>=", ">>>", ">>=", ">>", ">=", ">"]

/-- The operator a lexeme begins with, and the text after it. -/
def operatorOf (lexeme : Lexeme) : Option (String × List Char) :=
  match lexeme.token with
  | .punct ">" =>
      (angleOperators.find? fun text => text.toList.isPrefixOf lexeme.start).map fun text =>
        (text, lexeme.start.drop text.length)
  | .punct text => some (text, lexeme.rest)
  | .word "instanceof" false => some ("instanceof", lexeme.rest)
  | .word "in" false => some ("in", lexeme.rest)
  | _ => none

/-- The operator at the current token and the text after it. -/
def operator? : Recogniser (Option (String × List Char)) :=
  ask fun cursor => operatorOf cursor.current

/-- The binary operator at the current token, with its precedence and the text after
it. -/
def binaryOperator? : Recogniser (Option (String × Nat × List Char)) :=
  ask fun cursor => do
    let (text, rest) ← operatorOf cursor.current
    if text == "in" && !cursor.surroundings.allowIn then none
    else (precedence? text).map fun level => (text, level, rest)

/-- Whether a binary operator that is no word is here. -/
def atOperatorSign : Recogniser Bool := do
  match ← binaryOperator? with
  | some (text, _, _) => return text != "in" && text != "instanceof"
  | none => return false

/-- Casts behind an operand. -/
def casts (rules : Rules) (operand : Node) : Recogniser Node :=
  iterate operand fun operand => do
    let next ← peek
    if ← afterNewline then return .inr operand
    else if (← isWord "as") && isNamed next.token "const" then
      advance
      advance
      return .inl (.node .typeCast [operand])
    else if ← isAnyWord ["as", "satisfies"] then
      advance
      return .inl (.node .typeCast [operand, typeOf [← rules.type]])
    else return .inr operand

/-- What follows an operand: operators that bind more strongly than `minimum`, with
their operands.  `fuel` bounds the number of operators. -/
def operatorsFrom (rules : Rules) : Nat → Nat → Node → Recogniser Node
  | 0, _, _ => refuse
  | fuel + 1, minimum, left => do
      let left ← if minimum < castPrecedence then casts rules left else pure left
      match ← binaryOperator? with
      | none => return left
      | some (text, level, rest) =>
          if level ≤ minimum then return left
          else
            continueAfter rest
            let isPower := text == "**"
            require (!(isPower && (left.isKind .unary || left.isKind .awaitExpression)))
            let right ← rules.unary
            let bound := if isPower then level - 1 else level
            let right ← operatorsFrom rules fuel bound right
            operatorsFrom rules fuel minimum (.node .binary [left, right])

/-- The operators behind an operand. -/
def operatorsAfter (rules : Rules) (left : Node) : Recogniser Node := do
  operatorsFrom rules ((← ask Cursor.size) + 2) 0 left

/-- Operands with binary operators between them.  An arrow function stands alone. -/
def binary (rules : Rules) : Recogniser Node := do
  match ← recover (some <$> rules.unary) none with
  | some first =>
      if first.isKind .arrow then return first else operatorsAfter rules first
  | none =>
      require (← binaryOperator?).isSome
      operatorsAfter rules (.leaf .invalid)

/-- An assignment whose target has been read, or the target alone. -/
def assignTo (rules : Rules) (target : Node) : Recogniser Node := do
  match ← operator? with
  | some ("=", rest) =>
      let pattern ← if target.isLiteralPattern then
          match target.asPattern .assignment with
          | some pattern => pure pattern
          | none => refuse
        else do
          require target.isSimpleTarget
          pure target
      continueAfter rest
      return .node .assignment [pattern, ← rules.assignment]
  | some (text, rest) =>
      if compoundAssignments.contains text then
        require target.isSimpleTarget
        continueAfter rest
        return .node .otherAssignment [target, ← rules.assignment]
      else return target
  | none => return target

/-- The branches of a conditional expression after its question mark.  `beforeColon`
tells them that the colon of the expression follows. -/
def branches (rules : Rules) (condition : Node) (beforeColon : Bool) :
    Recogniser Node := do
  let whenTrue ← within
    (fun s => { s with
      allowIn := true
      inConditional := true
      colonExpected := beforeColon })
    rules.assignment
  expect ":"
  let whenFalse ← within
    (fun s => { s with
      inConditional := true
      colonExpected := false })
    rules.assignment
  return .node .conditional [condition, whenTrue, whenFalse]

/-- A conditional expression, or its condition alone. -/
def conditional (rules : Rules) : Recogniser Node := do
  let condition ← binary rules
  if condition.isKind .arrow then return condition
  else if ← eat "?" then branches rules condition true
  else return condition

end Phrasebook.Source.Grammar
