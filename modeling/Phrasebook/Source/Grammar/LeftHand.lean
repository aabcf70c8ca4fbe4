import Phrasebook.Source.Grammar.Primary

/-!
# Members, calls and constructions

An expression with what stands behind it: members, arguments, templates, type
arguments.  The children of a call are its callee, its arguments and its type
arguments.
-/

namespace Phrasebook.Source.Grammar

open Recogniser

/-- The arguments of a call in parentheses. -/
def callArguments (rules : Rules) : Recogniser (List Node) :=
  within (fun s => { s with colonExpected := false, allowIn := true }) do
    expect "("
    listUntil ")" (spreadable rules)

/-- A call of an expression that begins at a place.  A call behind `?.` has no callee
of its own. -/
def callOf (start stop : List Char) (callee : Node) (arguments types : List Node) :
    Node :=
  if callee.isKind .optionalChain then
    .node .optionalChain (callee :: (arguments ++ [typeOf types]))
  else .call start stop callee arguments [typeOf types]

/-- A call of an expression that begins at a place, from its parentheses on. -/
def callBehind (rules : Rules) (start : List Char) (callee : Node) (types : List Node) :
    Recogniser Node := do
  let arguments ← callArguments rules
  return callOf start (← behind) callee arguments types

/-- The words that begin an expression, beside identifiers. -/
def expressionWords : List String :=
  ["await", "class", "function", "new", "super", "this", "throw", "typeof", "void",
   "yield", "null", "true", "false", "import", "delete"]

/-- Whether a token can begin an expression. -/
def startsExpression (token : Token) : Bool :=
  match token with
  | .word name _ => !keywords.contains name || expressionWords.contains name
  | .privateName => true
  | .number => true
  | .string _ => true
  | .punct text =>
      ["(", "[", "\x7b", "\x60", "...", "!", "~", "++", "--", "<", "+", "-", "/"].contains
        text
  | _ => false

/-- Whether type arguments may end here without a call. -/
def mayInstantiate : Recogniser Bool := do
  if ← isAnyPunct ["(", "<", "<<", ">", "+", "-"] then return false
  else if ← afterNewline then return true
  else if (← binaryOperator?).isSome then return true
  else return !(startsExpression (← token))

/-- What follows type arguments of an expression: arguments of a call, a template, or
nothing. -/
def afterTypeArguments (rules : Rules) (start : List Char) (object : Node)
    (types : List Node) (allowCall : Bool) : Recogniser Node := do
  if allowCall && (← isPunct "(") then callBehind rules start object types
  else if ← isPunct "\x60" then
    return .node .taggedTemplate [object, typeOf types, ← template rules true]
  else
    require (← mayInstantiate)
    return .node .instantiation [object, typeOf types]

/-- The name of a member behind a point. -/
def memberWord : Recogniser Unit := do
  match ← token with
  | .word _ _ => advance
  | .privateName => advance
  | _ => refuse

/-- The link of a chain after its `?.`. -/
def chainLink (rules : Rules) (object : Node) : Recogniser Node := do
  let typesBeforeCall ←
    if ← isPunct "<" then
      attempt do
        let types ← typeArguments rules
        require (← isPunct "(")
        return types
    else pure none
  let types := typesBeforeCall.getD []
  if ← eat "[" then
    let index ← within (fun s => { s with allowIn := true }) rules.expression
    expect "]"
    return .node .optionalChain [object, index]
  else if ← isPunct "(" then
    let arguments ← callArguments rules
    return .node .optionalChain (object :: (arguments ++ [typeOf types]))
  else
    memberWord
    require !(← isPunct "\x60")
    return .node .optionalChain [object]

/-- The kind of a member of an object. -/
def memberKind (object : Node) : Kind :=
  if object.isKind .optionalChain then .optionalChain else .member

/-- One thing that stands behind an expression, or `none` where it ends. -/
def subscript? (rules : Rules) (start : List Char) (object : Node) (allowCall : Bool) :
    Recogniser (Option Node) := do
  let instantiated ←
    if ← isPunct "<" then
      attempt do
        let types ← typeArguments rules
        afterTypeArguments rules start object types allowCall
    else pure none
  match instantiated with
  | some node => return some node
  | none =>
      if ← eatIf (!(← afterNewline)) "!" then return some (.node .nonNull [object])
      else if ← eat "?." then return some (← chainLink rules object)
      else if ← eat "[" then
        let index ← within (fun s => { s with allowIn := true }) rules.expression
        expect "]"
        return some (.node (memberKind object) [object, index])
      else if allowCall && (← isPunct "(") then
        return some (← callBehind rules start object [])
      else if ← eat "." then
        memberWord
        return some (.node (memberKind object) [object])
      else if ← isPunct "\x60" then
        require !(object.isKind .optionalChain)
        return some (.node .taggedTemplate [object, ← template rules true])
      else return none

/-- Everything that stands behind an expression. -/
def subscripts (rules : Rules) (start : List Char) (object : Node) (allowCall : Bool) :
    Recogniser Node :=
  iterate object fun object => do
    match ← subscript? rules start object allowCall with
    | some object => return .inl object
    | none => return .inr object

/-- An expression after `super`, of which something must follow. -/
def superExpression (rules : Rules) (start : List Char) (allowCall : Bool) :
    Recogniser Node := do
  advance
  if allowCall && (← isPunct "(") then
    let call := Node.node .superCall (← callArguments rules)
    subscripts rules start call allowCall
  else if ← eat "[" then
    let index ← within (fun s => { s with allowIn := true }) rules.expression
    expect "]"
    subscripts rules start (.node .superMember [index]) allowCall
  else
    expect "."
    memberWord
    subscripts rules start (.leaf .superMember) allowCall

/-- An expression after `import`: a call, which may name a phase, or what is known
about the module. -/
def importExpression (rules : Rules) (start : List Char) (allowCall : Bool) :
    Recogniser Node := do
  advance
  let isMeta ← if ← eat "." then
      if ← eatWord "meta" then pure true
      else
        require (← isAnyWord ["source", "defer"])
        advance
        pure false
    else pure false
  if isMeta then subscripts rules start (.leaf .metaProperty) allowCall
  else
    require allowCall
    let call := Node.node .importCall (← callArguments rules)
    subscripts rules start call allowCall

/-- An expression with its members, but without calls, or a construction.  `fuel`
bounds the number of `new` in a row, and `nested` says that one precedes. -/
def memberOrNew (rules : Rules) : Nat → Bool → Recogniser Node
  | 0, _ => refuse
  | fuel + 1, nested => do
      let start ← here
      if ← isWord "new" then
        advance
        if ← eat "." then
          expectWord "target"
          subscripts rules start (.leaf .metaProperty) false
        else
          let callee ← memberOrNew rules fuel true
          if callee.isKind .arrow then return callee
          else
            require !(callee.isKind .optionalChain)
            let types ←
              if ← isOpenAngle then
                attempt do
                  let types ← typeArguments rules
                  require (← isPunct "(")
                  return types
              else pure none
            let types := types.getD []
            if ← isPunct "(" then
              let arguments ← callArguments rules
              let node := Node.node .newExpression (callee :: (arguments ++ [typeOf types]))
              subscripts rules start node false
            else if nested then return .node .newWithoutArguments [callee]
            else subscripts rules start (.node .newWithoutArguments [callee]) false
      else if ← isWord "super" then superExpression rules start false
      else if ← isWord "import" then importExpression rules start false
      else
        let object ← primary rules
        if object.isKind .arrow then return object
        else subscripts rules start object false

/-- An expression that can stand before an assignment sign. -/
def leftHand (rules : Rules) : Recogniser Node := do
  let start ← here
  let markup ← ask Cursor.markup
  if markup && (← isPunct "<") then
    advance
    let node ← orGiveUp rules.element
    expect ">"
    return node
  else if ← isWord "super" then superExpression rules start true
  else if ← isWord "import" then importExpression rules start true
  else
    let callee ← memberOrNew rules ((← ask Cursor.size) + 1) false
    if callee.isKind .arrow then return callee
    else
      let types ←
        if ← isOpenAngle then
          attempt do
            let types ← typeArguments rules
            require (← isPunct "(")
            return types
        else pure none
      if callee.isKind .newWithoutArguments then
        require types.isNone
        return callee
      else if ← isPunct "(" then
        let call ← callBehind rules start callee (types.getD [])
        subscripts rules start call true
      else return callee

end Phrasebook.Source.Grammar
