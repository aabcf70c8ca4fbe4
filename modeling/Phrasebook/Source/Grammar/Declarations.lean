import Phrasebook.Source.Grammar.Classes

/-!
# Declarations

Variables, functions and classes, and the declarations of types: enumerations,
interfaces, namespaces and aliases.
-/

namespace Phrasebook.Source.Grammar

open Recogniser

/-- The words that begin a declaration of variables. -/
inductive VariableWord where
  | var
  | letWord
  | const
  | using
  deriving DecidableEq

/-- A variable that is declared.  `inLoop` says that the declaration stands at the
head of a loop. -/
def declaredVariable (rules : Rules) (word : VariableWord) (inLoop : Bool) :
    Recogniser Node := do
  let name ← rules.binding (word = .letWord || word = .const)
  if name.isIdent then
    let _ ← eat "!"
  else pure ()
  let type ← annotation? rules
  let headGoesOn := inLoop && (← isAnyWord ["in", "of"])
  if ← eatIf (!headGoesOn) "=" then
    return .node .statement [name, typeOf type, ← rules.assignment]
  else
    let inDeclare ← ask fun cursor => cursor.surroundings.inDeclare
    let needsValue := !headGoesOn && !inDeclare && !name.isIdent &&
      !(word = .const && !inLoop)
    require !needsValue
    return .node .statement [name, typeOf type]

/-- Declared variables with commas between them.  A comma may be the last of them. -/
def declaredVariables (rules : Rules) (word : VariableWord) (inLoop : Bool) :
    Recogniser (List Node) :=
  within (fun s => { s with allowIn := !(inLoop && word = .var) }) do
    iterate [] fun read => do
      if ← isPunct ";" then return .inr read.reverse
      else
        let read := (← declaredVariable rules word inLoop) :: read
        if ← eat "," then return .inl read else return .inr read.reverse

/-- Go on behind the next place where a statement may end. -/
def skipStatement (rules : Rules) : Recogniser Unit := do
  let _ ← recover (some <$> rules.expression) none
  iterate () fun _ => do
    if ← eatSemicolon then return .inr ()
    else if (← token) == .bad then return .inr ()
    else
      advance
      return .inl ()

/-- A declaration of variables after its word, as a statement.  Where the semicolon is
missing, reading goes on behind the next one. -/
def variableStatement (rules : Rules) (word : VariableWord) : Recogniser Node := do
  let declared ← declaredVariables rules word false
  if ← eatSemicolon then pure () else skipStatement rules
  return .node .statement declared

/-- The word that begins a declaration of variables, if one begins here. -/
def variableWord? : Recogniser (Option VariableWord) := do
  let next ← peek
  if ← isWord "var" then return some .var
  else if ← isWord "const" then return some .const
  else if ← isWord "let" then
    let declares := match next.token with
      | .word name _ => !keywords.contains name
      | .punct text => text == "[" || text == "\x7b"
      | _ => false
    return if declares then some .letWord else none
  else return none

/-- A member of an enumeration.  Where its end is missing, the next token is taken for
a comma. -/
def enumMember (rules : Rules) : Recogniser Node := do
  if ← eat "[" then
    let _ ← rules.expression
    advance
  else
    match ← token with
    | .word _ _ => advance
    | .string _ => advance
    | .number => advance
    | _ => refuse
  if ← eat "=" then return .node .statement [← rules.assignment]
  else return .leaf .statement

/-- The members of an enumeration in braces. -/
def enumMembers (rules : Rules) : Recogniser (List Node) := do
  expect "\x7b"
  readUntil "\x7d" fun read => do
    let member ← enumMember rules
    let hasValue := match member with
      | .node _ children => !children.isEmpty
      | _ => false
    if ← eat "," then return member :: read
    else if ← isPunct "\x7d" then return member :: read
    else
      require (!hasValue && !(← atEnd))
      advance
      return member :: read

/-- An enumeration after its word. -/
def enumeration (rules : Rules) : Recogniser Node := do
  let _ ← anyName
  return .node .statement (← enumMembers rules)

/-- An interface after its word. -/
def interface (rules : Rules) : Recogniser Node := do
  let _ ← anyName
  let typeParameters ← typeParameters? rules
  let parents ← if ← eatWord "extends" then heritage rules else pure []
  if ← isWord "extends" then
    iterate () fun _ => do
      if (← isPunct "\x7b") || (← atEnd) then return .inr ()
      else
        advance
        return .inl ()
  else pure ()
  let members ← typeMembers rules
  return .node .statement [typeOf (typeParameters ++ parents ++ members)]

/-- An alias of a type after its word. -/
def typeAlias (rules : Rules) : Recogniser Node := do
  let _ ← anyName
  let typeParameters ← typeParameters? rules
  expect "="
  let type ← rules.type
  expectSemicolon
  return .node .statement [typeOf (typeParameters ++ [type])]

/-- Items of a module in braces. -/
def moduleBlock (rules : Rules) : Recogniser Node := do
  expect "\x7b"
  let items ← readUntil "\x7d" fun read => return (← rules.moduleItem) :: read
  return .node .statement items

/-- A namespace after its word. -/
def namespaceTail (rules : Rules) : Recogniser Node := do
  let _ ← anyName
  qualifiedTail
  moduleBlock rules

/-- A module that is declared from outside, from its name on. -/
def ambientModule (rules : Rules) : Recogniser Node := do
  match ← token with
  | .string _ => advance
  | _ => expectWord "global"
  if ← isPunct "\x7b" then moduleBlock rules
  else
    expectSemicolon
    return .leaf .statement

/-- The declaration that a word begins, or `none` if it begins none here.  `isWhole`
says that the word is the current token and can only begin a declaration; otherwise
it precedes the current token. -/
def typeDeclaration? (rules : Rules) (word : String) (isWhole : Bool) :
    Recogniser (Option Node) := do
  let advanceIfWhole : Recogniser Unit := if isWhole then advance else pure ()
  let newline ← afterNewline
  let named := isReference (← token)
  match word with
  | "abstract" =>
      if isWhole || ((← isWord "class") && !newline) then
        advanceIfWhole
        return some (← classFrom rules true)
      else return none
  | "enum" =>
      if isWhole || named then
        advanceIfWhole
        return some (← enumeration rules)
      else return none
  | "interface" =>
      if isWhole || named then
        advanceIfWhole
        return some (← interface rules)
      else return none
  | "module" =>
      if newline then return none
      else
        advanceIfWhole
        match ← token with
        | .string _ => return some (← ambientModule rules)
        | current =>
            if isWhole || isReference current then return some (← namespaceTail rules)
            else return none
  | "namespace" =>
      if isWhole || named then
        advanceIfWhole
        return some (← namespaceTail rules)
      else return none
  | "type" =>
      if isWhole || (named && !newline) then
        advanceIfWhole
        return some (← typeAlias rules)
      else return none
  | _ => return none

/-- A declaration without implementation, after `declare`; `none` if no declaration
follows. -/
def ambientDeclaration? (rules : Rules) : Recogniser (Option Node) :=
  within (fun s => { s with inDeclare := true }) do
    let next ← peek
    if ← isWord "function" then return some (← functionFrom rules .required false)
    else if ← isWord "class" then return some (← classFrom rules true)
    else if (← isWord "const") && isNamed next.token "enum" then
      advance
      advance
      return some (← enumeration rules)
    else if ← isAnyWord ["const", "var", "let"] then
      let word ← if ← isWord "const" then pure VariableWord.const
        else if ← isWord "var" then pure .var
        else pure .letWord
      advance
      return some (← variableStatement rules word)
    else if ← isWord "global" then return some (← ambientModule rules)
    else
      match ← token with
      | .word name _ => typeDeclaration? rules name true
      | _ => return none

end Phrasebook.Source.Grammar
