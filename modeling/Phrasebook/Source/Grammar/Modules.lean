import Phrasebook.Source.Grammar.Statements

/-!
# Modules

Imports and exports, and the items of a module.
-/

namespace Phrasebook.Source.Grammar

open Recogniser

/-- A name in a list of imports or exports: a word or a string. -/
inductive ModuleName where
  | word (name : String)
  | string
  deriving DecidableEq

/-- A name in a list of imports or exports. -/
def moduleName : Recogniser ModuleName := do
  match ← token with
  | .word name _ => do advance; return .word name
  | .string _ => do advance; return .string
  | _ => refuse

/-- The name of a module, a string. -/
def moduleSource : Recogniser Unit := do
  match ← token with
  | .string _ => advance
  | _ => refuse

/-- Whether a word of any kind is here. -/
def atName : Recogniser Bool :=
  return isAnyName (← token)

/-- Attributes of an import, if there are any. -/
def importAttributes (rules : Rules) : Recogniser (List Node) := do
  if !(← afterNewline) && (← isAnyWord ["assert", "with"]) then
    advance
    expect "\x7b"
    return [← objectLiteral rules]
  else return []

/-- The module that names come from, from `from` to the end of the statement. -/
def fromClause (rules : Rules) : Recogniser Node := do
  expectWord "from"
  moduleSource
  let attributes ← importAttributes rules
  expectSemicolon
  return statementOf attributes

/-- The rest of a renamed entry whose first word is `type`: the name that follows
`as`, where `type` itself may be the name. -/
def typeEntryTail (binds : Bool) : Recogniser (Option ModuleName) := do
  let name ← anyName
  if name == "as" then
    if !(← atName) then return none
    else
      require (!binds || isBindable (← token))
      let second ← anyName
      if second == "as" && (← atName) then
        require (!binds || isBindable (← token))
        let _ ← anyName
        return none
      else return none
  else return some (.word name)

/-- An entry in a list of imports.  A name that cannot be bound must be renamed. -/
def importEntry : Recogniser Node := do
  let name ← moduleName
  let name ←
    if name = .word "type" && (← atName) then typeEntryTail true else pure (some name)
  match name with
  | none => return statementOf []
  | some name =>
      if ← eatWord "as" then
        require (isBindable (← token))
        advance
        return statementOf []
      else
        let isFree := match name with
          | .word word =>
              !keywords.contains word && !moduleReserved.contains word && word != "let"
          | .string => false
        require isFree
        return statementOf []

/-- An entry in a list of exports. -/
def exportEntry : Recogniser Node := do
  let name ← moduleName
  let name ←
    if name = .word "type" && (← atName) then typeEntryTail false else pure (some name)
  match name with
  | none => return statementOf []
  | some _ =>
      if ← eatWord "as" then
        let _ ← moduleName
        return statementOf []
      else return statementOf []

/-- The module or name an import is equal to, from the equals sign on. -/
def importEquals : Recogniser Node := do
  expect "="
  let next ← peek
  if (← isWord "require") && next.token == .punct "(" then
    advance
    advance
    moduleSource
    expect ")"
  else
    let _ ← anyName
    qualifiedTail
  expectSemicolon
  return statementOf []

/-- When an imported module is loaded and run. -/
inductive ImportPhase where
  | evaluation
  | source
  | deferred
  deriving DecidableEq

/-- The phase that a word names. -/
def ImportPhase.ofWord (word : String) : ImportPhase :=
  if word == "source" then .source
  else if word == "defer" then .deferred
  else .evaluation

/-- The names of an import behind the default one, and the module.  A module that is
not run at once has no list of names, and a source has no names at all. -/
def importNames (rules : Rules) (phase : ImportPhase) : Recogniser Node := do
  if (← isPunct "*") && phase ≠ .source then
    advance
    expectWord "as"
    require (isBindable (← token))
    advance
  else if (← isPunct "\x7b") && phase = .evaluation then
    advance
    let _ ← listUntil "\x7d" importEntry
  else pure ()
  fromClause rules

/-- An import behind its default name. -/
def importAfterDefault (rules : Rules) (phase : ImportPhase) : Recogniser Node := do
  if ← isPunct "=" then importEquals
  else
    if ← isWord "from" then pure () else expect ","
    importNames rules phase

/-- An import behind a first word that may be the default name, or say more about the
import. -/
def importAfterWord (rules : Rules) (word : String) : Recogniser Node := do
  let next ← peek
  let isType := word == "type"
  let phase := ImportPhase.ofWord word
  let nameFollows := isReference (← token) &&
    (!(← isWord "from") || isNamed next.token "from" ||
      (isType && next.token == .punct "="))
  if isType && (← isAnyPunct ["*", "\x7b"]) then importNames rules .evaluation
  else if phase ≠ .evaluation && (← isPunct "*") then importNames rules phase
  else if isType && nameFollows then
    advance
    importAfterDefault rules .evaluation
  else if phase ≠ .evaluation && nameFollows then
    advance
    importAfterDefault rules phase
  else importAfterDefault rules .evaluation

/-- An import after its word. -/
def importDeclaration (rules : Rules) : Recogniser Node := do
  match ← token with
  | .string _ => do
      advance
      let attributes ← importAttributes rules
      expectSemicolon
      return statementOf attributes
  | current =>
      if isReference current || isNamed current "yield" then
        importAfterWord rules (← anyName)
      else importNames rules .evaluation

/-- A default export after its word. -/
def defaultExport (rules : Rules) : Recogniser Node := do
  let next ← peek
  if (← isWord "abstract") && isNamed next.token "class" && !next.newline then
    advance
    classFrom rules false
  else
    if (← isWord "abstract") && isNamed next.token "interface" then advance else pure ()
    if ← isWord "interface" then
      advance
      interface rules
    else if ← isWord "class" then classFrom rules false
    else if ← startsAsyncFunction then
      advance
      functionFrom rules .optional true
    else if ← isWord "function" then functionFrom rules .optional false
    else
      let node ← within (fun s => { s with allowIn := true }) (assignment rules)
      expectSemicolon
      return statementOf [node]

/-- Exported names, with the module they come from if there is one. -/
def exportNames (rules : Rules) : Recogniser Node := do
  let next ← peek
  if ← isPunct "*" then
    advance
    if isNamed next.token "as" then
      advance
      let _ ← moduleName
    else pure ()
    fromClause rules
  else
    expect "\x7b"
    let _ ← listUntil "\x7d" exportEntry
    if ← isWord "from" then fromClause rules
    else
      let _ ← eatSemicolon
      return statementOf []

/-- An exported declaration, or exported names. -/
def exportDeclaration (rules : Rules) : Recogniser Node := do
  let next ← peek
  if ← isWord "class" then classFrom rules true
  else if ← startsAsyncFunction then
    advance
    functionFrom rules .required true
  else if ← isWord "function" then functionFrom rules .required false
  else if (← isWord "const") && isNamed next.token "enum" then
    advance
    advance
    enumeration rules
  else
    match ← variableWord? with
    | some word => do
        advance
        variableStatement rules word
    | none => exportNames rules

/-- An export after its word, `declare` and the declarations of types excluded. -/
def plainExport (rules : Rules) : Recogniser Node := do
  if ← eatWord "import" then
    let next ← peek
    if (← isWord "type") && isReference next.token then advance else pure ()
    let _ ← anyName
    importEquals
  else if ← eat "=" then
    let node ← freeExpression rules
    expectSemicolon
    return statementOf [node]
  else if ← eatWord "as" then
    expectWord "namespace"
    let _ ← anyName
    expectSemicolon
    return statementOf []
  else if ← eatWord "type" then exportNames rules
  else if ← eatWord "default" then defaultExport rules
  else exportDeclaration rules

/-- A declaration behind `declare`, if this word is here and a declaration follows. -/
def ambientHere? (rules : Rules) : Recogniser (Option Node) := do
  if ← eatWord "declare" then ambientDeclaration? rules else return none

/-- The declaration that begins with the current word, if one does. -/
def typeDeclarationHere? (rules : Rules) : Recogniser (Option Node) := do
  match ← token with
  | .word name _ =>
      attempt do
        match ← typeDeclaration? rules name true with
        | some node => return node
        | none => refuse
  | _ => return none

/-- An export after its word. -/
def exportStatement (rules : Rules) : Recogniser Node := do
  match ← ambientHere? rules with
  | some node => return node
  | none =>
      match ← typeDeclarationHere? rules with
      | some node => return node
      | none => plainExport rules

/-- An item of a module. -/
def moduleItem (rules : Rules) : Recogniser Node := do
  let next ← peek
  let isExpression := next.token == .punct "(" || next.token == .punct "."
  if (← isWord "import") && !isExpression then
    advance
    importDeclaration rules
  else if ← eatWord "export" then exportStatement rules
  else rules.statement true

/-- A whole module. -/
def module (rules : Rules) : Recogniser Node := do
  let items ← iterate [] fun read => do
    if ← atEnd then return .inr read.reverse
    else return .inl ((← rules.moduleItem) :: read)
  return .node .module items

end Phrasebook.Source.Grammar
