import Phrasebook.Source.Grammar.Rules

/-!
# Types

Types matter for what stands in them, which is little: the expressions of computed
names.  They must be read all the same, since what follows depends on their end.
-/

namespace Phrasebook.Source.Grammar

open Recogniser

/-- A type node. -/
def typeOf (children : List Node) : Node :=
  .node .type children

/-- Type arguments between angle brackets. -/
def typeArguments (rules : Rules) : Recogniser (List Node) :=
  within (fun s => { s with conditionalTypes := true }) do
    expectOpenAngle
    listUntil ">" rules.type

/-- Type arguments, if they begin on this line. -/
def typeArguments? (rules : Rules) : Recogniser (List Node) := do
  if (← isOpenAngle) && !(← afterNewline) then typeArguments rules else return []

/-- A type after a colon, if there is one. -/
def annotation? (rules : Rules) : Recogniser (List Node) := do
  if ← eat ":" then return [← rules.type] else return []

/-- A type parameter with its modifiers, bound and default. -/
def typeParameter (rules : Rules) : Recogniser Node := do
  let _ ← iterate () fun _ => do
    let next ← peek
    if (← isAnyWord ["const", "in", "out"]) && isAnyName next.token &&
        !isNamed next.token "extends" then
      advance
      return .inl ()
    else return .inr ()
  let _ ← anyName
  let bound ← if ← eatWord "extends" then pure [← rules.type] else pure []
  let default ← if ← eat "=" then pure [← rules.type] else pure []
  return typeOf (bound ++ default)

/-- Type parameters between angle brackets. -/
def typeParameters (rules : Rules) : Recogniser (List Node) :=
  within (fun s => { s with conditionalTypes := true }) do
    expectOpenAngle
    listUntil ">" (typeParameter rules)

/-- Type parameters, if they begin here. -/
def typeParameters? (rules : Rules) : Recogniser (List Node) := do
  if ← isPunct "<" then typeParameters rules else return []

/-- A type that a function returns, or what it tells about an argument. -/
def returnType (rules : Rules) : Recogniser Node := do
  let next ← peek
  if (← isWord "asserts") && (isReference next.token || isNamed next.token "this") &&
      !next.newline then
    advance
  else pure ()
  let next ← peek
  let current ← token
  if (isReference current || isNamed current "this") && isNamed next.token "is" &&
      !next.newline then
    advance
    advance
    rules.type
  else rules.type

/-- The parameters of a signature after the opening parenthesis.  They have no
default values. -/
def signatureParameters (rules : Rules) : Recogniser (List Node) := do
  let parameters ← rules.parameters
  expect ")"
  let isDefault (parameter : Node) : Bool := match parameter with
    | .node .assignment _ => true
    | _ => false
  if parameters.any isDefault then refuse
  else return parameters

/-- A signature with parameters and a result, which follows a given sign. -/
def functionType (rules : Rules) : Recogniser Node := do
  let typeParameters ← typeParameters? rules
  expect "("
  let parameters ← signatureParameters rules
  expect "=>"
  let result ← returnType rules
  return typeOf (typeParameters ++ parameters ++ [result])

/-- Skip what is between brackets of a kind. -/
def skipBrackets (opening closing : String) : Recogniser Unit :=
  iterate 0 fun (depth : Nat) => do
    if ← eat opening then return .inl (depth + 1)
    else if ← eat closing then return if depth = 1 then .inr () else .inl (depth - 1)
    else if ← atEnd then refuse
    else
      advance
      return .inl depth

/-- Whether parentheses begin the type of a function. -/
def startsFunctionType : Recogniser Bool := do
  if ← isPunct "<" then return true
  else if !(← isPunct "(") then return false
  else
    lookAhead do
      advance
      if ← isAnyPunct [")", "..."] then pure ()
      else
        eatModifier
        if isAnyName (← token) then advance
        else if ← isPunct "\x7b" then skipBrackets "\x7b" "\x7d"
        else if ← isPunct "[" then skipBrackets "[" "]"
        else refuse
        if ← isAnyPunct [":", ",", "?", "="] then pure ()
        else
          expect ")"
          require (← isPunct "=>")

/-- The end of a member of an object type. -/
def memberEnd : Recogniser Unit := do
  if ← eat "," then pure () else expectSemicolon

/-- The name of a member; a computed name is visited. -/
def memberName (rules : Rules) : Recogniser (List Node) := do
  if ← eat "[" then
    let name ← rules.assignment
    expect "]"
    return [name]
  else
    match ← token with
    | .word _ _ => advance
    | .string _ => advance
    | .number => advance
    | .privateName => advance
    | _ => refuse
    return []

/-- An index signature, if one begins here. -/
def indexSignature? (rules : Rules) : Recogniser (Option Node) := do
  let begins ← if !(← isPunct "[") then pure false
    else lookAhead do
      advance
      require (isReference (← token))
      advance
      require (← isAnyPunct [":", ","])
  if begins then
    advance
    let parameters ← readUntil "]" fun read => do
      let name ← rules.binding false
      let type ← annotation? rules
      commaBefore "]"
      return typeOf (name :: type) :: read
    let type ← annotation? rules
    memberEnd
    return some (typeOf (parameters ++ type))
  else return none

/-- The parameters and the result of a method or call signature, and its end. -/
def signatureTail (rules : Rules) : Recogniser (List Node) := do
  let typeParameters ← typeParameters? rules
  expect "("
  let parameters ← signatureParameters rules
  let result ← if ← eat ":" then pure [← returnType rules] else pure []
  memberEnd
  return typeParameters ++ parameters ++ result

/-- A getter or setter signature. -/
def accessorSignature (rules : Rules) : Recogniser Node := do
  let isGetter ← eatWord "get"
  if isGetter then pure () else expectWord "set"
  let name ← memberName rules
  expect "("
  let parameters ← signatureParameters rules
  require (isGetter == parameters.isEmpty)
  let result ← if isGetter then annotation? rules else pure []
  memberEnd
  return typeOf (name ++ parameters ++ result)

/-- A property or method signature. -/
def propertySignature (rules : Rules) (readonly : Bool) : Recogniser Node := do
  let name ← memberName rules
  let _ ← eat "?"
  if ← isAnyPunct ["(", "<"] then
    require !readonly
    return typeOf (name ++ (← signatureTail rules))
  else
    let type ← annotation? rules
    memberEnd
    return typeOf (name ++ type)

/-- A member of an object type. -/
def typeMember (rules : Rules) : Recogniser Node := do
  if ← isAnyPunct ["(", "<"] then return typeOf (← signatureTail rules)
  else
    let next ← peek
    if (← isWord "new") && (next.token == .punct "(" || next.token == .punct "<") then
      advance
      return typeOf (← signatureTail rules)
    else
      let readonly := (← modifier? ["readonly"] false).isSome
      match ← indexSignature? rules with
      | some signature => return signature
      | none =>
          let accessor ← if readonly then pure none else attempt (accessorSignature rules)
          match accessor with
          | some signature => return signature
          | none => propertySignature rules readonly

/-- The members of an object type with their braces. -/
def typeMembers (rules : Rules) : Recogniser (List Node) := do
  expect "\x7b"
  readUntil "\x7d" fun read => return (← typeMember rules) :: read

/-- Whether braces begin a mapped type. -/
def startsMappedType : Recogniser Bool :=
  lookAhead do
    expect "\x7b"
    if ← isAnyPunct ["+", "-"] then
      advance
      require (← isWord "readonly")
    else
      let _ ← eatWord "readonly"
      expect "["
      require (isReference (← token))
      advance
      require (← isWord "in")

/-- A mapped type. -/
def mappedType (rules : Rules) : Recogniser Node := do
  expect "\x7b"
  if ← isAnyPunct ["+", "-"] then
    advance
    expectWord "readonly"
  else
    let _ ← eatWord "readonly"
  expect "["
  let _ ← anyName
  expectWord "in"
  let keys ← rules.type
  let names ← if ← eatWord "as" then pure [← rules.type] else pure []
  expect "]"
  if ← isAnyPunct ["+", "-"] then
    advance
    expect "?"
  else
    let _ ← eat "?"
  let type ← annotation? rules
  expectSemicolon
  expect "\x7d"
  return typeOf (keys :: names ++ type)

/-- An element of a tuple type, with or without a label. -/
def tupleElement (rules : Rules) : Recogniser Node := do
  let _ ← eat "..."
  let _ ← attempt do
    let _ ← anyName
    let _ ← eat "?"
    expect ":"
  let type ← rules.type
  let _ ← eat "?"
  return type

/-- Names with points between them, after the first one. -/
def qualifiedTail : Recogniser Unit :=
  iterate () fun _ => do
    if ← eat "." then
      let _ ← anyName
      return .inl ()
    else return .inr ()

/-- A named type with its arguments. -/
def typeReference (rules : Rules) : Recogniser Node := do
  let _ ← anyName
  qualifiedTail
  return typeOf (← typeArguments? rules)

/-- The type of a module. -/
def importType (rules : Rules) : Recogniser Node := do
  expectWord "import"
  expect "("
  match ← token with
  | .string _ => advance
  | _ => refuse
  let options ← if ← eat "," then
      if ← isPunct ")" then pure []
      else do
        let options ← rules.assignment
        let _ ← eat ","
        pure [options]
    else pure []
  expect ")"
  qualifiedTail
  return typeOf (options ++ (← typeArguments? rules))

/-- The type of a value. -/
def typeQuery (rules : Rules) : Recogniser Node := do
  expectWord "typeof"
  if ← isWord "import" then importType rules else typeReference rules

/-- A template type: pieces of text with types between them. -/
def templateType (rules : Rules) : Recogniser Node := do
  let size ← ask Cursor.size
  iterate [] fun read => do
    match Lexeme.readPiece (size + 1) true (← ahead) with
    | none => refuse
    | some piece =>
        continueAfter piece.rest
        if piece.final then return .inr (typeOf read.reverse)
        else
          let type ← rules.type
          require (← isPunct "\x7d")
          return .inl (type :: read)

/-- A type without operators and brackets behind it. -/
def primaryType (rules : Rules) : Recogniser Node := do
  let current ← token
  match current with
  | .string _ => do advance; return typeOf []
  | .number => do advance; return typeOf []
  | .punct "-" => do
      advance
      require ((← token) == .number)
      advance
      return typeOf []
  | .punct "\x7b" =>
      if ← startsMappedType then mappedType rules
      else return typeOf (← typeMembers rules)
  | .punct "[" => do
      advance
      return typeOf (← listUntil "]" (tupleElement rules))
  | .punct "(" => do
      advance
      let type ← rules.type
      expect ")"
      return type
  | .punct "\x60" => templateType rules
  | .word name _ =>
      if name == "import" then importType rules
      else if name == "typeof" then typeQuery rules
      else if name == "this" then do
        advance
        let next ← peek
        if (← isWord "is") && !(← afterNewline) && !next.newline then
          advance
          rules.type
        else return typeOf []
      else if name == "asserts" then do
        let next ← peek
        if isNamed next.token "this" then
          advance
          advance
          if ← eatWord "is" then rules.type else return typeOf []
        else typeReference rules
      else if name == "true" || name == "false" then do
        advance
        return typeOf []
      else if isReference current ||
          ["void", "yield", "null", "await", "break"].contains name then
        typeReference rules
      else refuse
  | _ => refuse

/-- A type with brackets behind it, as for arrays and members. -/
def postfixType (rules : Rules) : Recogniser Node := do
  let type ← within (fun s => { s with conditionalTypes := true }) (primaryType rules)
  iterate type fun type => do
    if (← isPunct "[") && !(← afterNewline) then
      advance
      if ← eat "]" then return .inl type
      else
        let index ← within (fun s => { s with conditionalTypes := true }) rules.type
        expect "]"
        return .inl (typeOf [type, index])
    else return .inr type

/-- The bound of an inferred name, unless it belongs to a conditional type. -/
def inferredBound? (rules : Rules) : Recogniser (List Node) := do
  let conditional ← ask fun cursor => cursor.surroundings.conditionalTypes
  let bound ← attempt do
    expectWord "extends"
    let bound ← within (fun s => { s with conditionalTypes := false }) rules.type
    if conditional && (← isPunct "?") then refuse else return bound
  return bound.toList

/-- A type with operators in front of it. -/
def operatorType (rules : Rules) : Recogniser Node := do
  let _ ← iterate () fun _ => do
    let next ← peek
    let operand := match next.token with
      | .word name _ => name != "extends" && name != "is" && name != "as"
      | .string _ => true
      | .number => true
      | .punct text => ["(", "[", "\x7b", "\x60", "-"].contains text
      | _ => false
    if (← isAnyWord ["keyof", "unique", "readonly"]) && operand then
      advance
      return .inl ()
    else return .inr ()
  let next ← peek
  if (← isWord "infer") && isAnyName next.token then
    advance
    let _ ← anyName
    return typeOf (← inferredBound? rules)
  else postfixType rules

/-- Types joined by an operator, which may also stand in front. -/
def joinedTypes (operator : String) (operand : Recogniser Node) : Recogniser Node := do
  let _ ← eat operator
  let first ← operand
  iterate first fun types => do
    if ← eat operator then return .inl (typeOf [types, ← operand])
    else return .inr types

/-- A type that is not conditional. -/
def unconditionalType (rules : Rules) : Recogniser Node := do
  if ← startsFunctionType then functionType rules
  else
    let next ← peek
    let isAbstract := (← isWord "abstract") && isNamed next.token "new"
    if isAbstract || (← isWord "new") then
      if isAbstract then advance else pure ()
      advance
      functionType rules
    else joinedTypes "|" (joinedTypes "&" (operatorType rules))

/-- A type. -/
def type (rules : Rules) : Recogniser Node := do
  let checked ← unconditionalType rules
  let conditional ← ask fun cursor => cursor.surroundings.conditionalTypes
  if conditional && !(← afterNewline) && (← isWord "extends") then
    advance
    let bound ← within (fun s => { s with conditionalTypes := false }) rules.type
    expect "?"
    let whenTrue ← rules.type
    expect ":"
    let whenFalse ← rules.type
    return typeOf [checked, bound, whenTrue, whenFalse]
  else return checked

end Phrasebook.Source.Grammar
