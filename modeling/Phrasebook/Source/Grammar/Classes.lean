import Phrasebook.Source.Grammar.Functions

/-!
# Classes

The members of a class are visited before what the class extends.
-/

namespace Phrasebook.Source.Grammar

open Recogniser

/-- Modifiers that say who may use a member. -/
def accessModifiers : List String :=
  ["public", "protected", "private", "in", "out"]

/-- A modifier of access, if one is here. -/
def accessModifier? : Recogniser Bool :=
  return (← modifier? accessModifiers false).isSome

/-- The name of a member, which may be private. -/
def memberKey (rules : Rules) : Recogniser PropertyName := do
  if (← token) == .privateName then
    advance
    return .hidden
  else propertyName rules

/-- Whether a method's parameters begin here. -/
def startsMethod : Recogniser Bool :=
  isAnyPunct ["(", "<"]

/-- Whether a property goes on or ends here; `byLine` lets it end with the line. -/
def startsProperty (byLine : Bool) : Recogniser Bool := do
  if ← isAnyPunct ["!", ":", "=", "\x7d", ";"] then return true
  else if byLine then statementMayEnd
  else return false

/-- A method after its name. -/
def methodTail (rules : Rules) (key : PropertyName) (isAsync isGenerator : Bool) :
    Recogniser Node := do
  return .node .method [key.node, ← functionTail rules isAsync isGenerator]

/-- A property after its name.  The semicolon behind it may be missing. -/
def propertyTail (rules : Rules) (key : PropertyName) (optional : Bool) :
    Recogniser Node := do
  require !key.isConstructor
  if optional then pure ()
  else
    let _ ← eat "!"
  let type ← annotation? rules
  let value ← initialValue? rules
  let _ ← eatSemicolon
  return .node .property (key.node :: (value.toList ++ [typeOf type]))

/-- A parameter of a constructor, which may declare a property. -/
def constructorParameter (rules : Rules) : Recogniser Node := do
  if ← eat "..." then restParameter rules
  else
    let isAccessible ← accessModifier?
    let isOverride := (← modifier? ["override"] false).isSome
    let isReadonly := (← modifier? ["readonly"] false).isSome
    let parameter ← singleParameter rules
    let declares := isAccessible || isOverride || isReadonly
    let mayDeclare := match parameter with
      | .ident _ => true
      | .node .typedName _ => true
      | .node .assignment _ => true
      | _ => false
    require (!declares || mayDeclare)
    return parameter

/-- A constructor after its name. -/
def constructorTail (rules : Rules) (key : PropertyName) : Recogniser Node := do
  let _ ← typeParameters? rules
  expect "("
  let parameters ← iterate [] fun read => do
    if (← isPunct ")") || (← atEnd) then return .inr read.reverse
    else
      let parameter ← constructorParameter rules
      commaBefore ")"
      return .inl (parameter :: read)
  expect ")"
  let _ ← annotation? rules
  let body ← within (insideFunction false false) (functionBody? rules)
  return .node .method (key.node :: (parameters ++ body))

/-- A member with a word for a name, if the word is read and only a name here. -/
def memberNamed? (rules : Rules) (isRead : Bool) (word : String) : Recogniser (Option Node) := do
  if !isRead then return none
  else if ← startsMethod then return some (← methodTail rules (.name word) false false)
  else if (← startsProperty false) || (← isPunct "?") then
    let optional ← eat "?"
    return some (← propertyTail rules (.name word) optional)
  else return none

/-- The modifiers in front of a member: whether it is static, abstract, overriding
and read-only. -/
structure MemberModifiers where
  isStatic : Bool := false
  isAbstract : Bool := false
  isOverride : Bool := false
  isReadonly : Bool := false

/-- Take the modifiers in front of a member. -/
def memberModifiers (modifiers : MemberModifiers) : Recogniser MemberModifiers :=
  iterate modifiers fun modifiers => do
    match ← modifier? ["abstract", "readonly", "override", "static"] true with
    | some "abstract" => return .inl { modifiers with isAbstract := true }
    | some "readonly" => return .inl { modifiers with isReadonly := true }
    | some "override" => return .inl { modifiers with isOverride := true }
    | some _ => return .inl { modifiers with isStatic := true }
    | none => return .inr modifiers

/-- A member after its name `async`, `get` or `set` turned out to be a word in front
of the name. -/
def prefixedMember (rules : Rules) (key : PropertyName) : Recogniser Node := do
  if key.isNamed "async" then
    let _ ← modifier? ["override"] false
    let isGenerator ← eat "*"
    let key ← memberKey rules
    require !key.isConstructor
    let _ ← eat "?"
    methodTail rules key true isGenerator
  else
    let key ← memberKey rules
    methodTail rules key false false

/-- A member after its modifiers. -/
def memberAfterModifiers (rules : Rules) (modifiers : MemberModifiers) :
    Recogniser Node := do
  if ← eat "*" then
    let key ← memberKey rules
    methodTail rules key false true
  else
    let key ← if modifiers.isReadonly && (← isAnyPunct ["!", ":"]) then
        pure (PropertyName.name "readonly")
      else memberKey rules
    let optional ← eat "?"
    if ← startsMethod then
      require !modifiers.isReadonly
      if key.isConstructor then constructorTail rules key
      else methodTail rules key false false
    else
      let generatorFollows := (← afterNewline) && (← isPunct "*")
      let isAccessor := (key.isNamed "get" || key.isNamed "set") &&
        !(← startsProperty false) && !generatorFollows
      if !isAccessor && (← startsProperty true) then propertyTail rules key optional
      else if isAccessor || (key.isNamed "async" && !(← afterNewline)) then
        prefixedMember rules key
      else refuse

/-- A block that is run for the class. -/
def staticBlock (rules : Rules) : Recogniser Node :=
  within (insideFunction false false) (block rules)

/-- A member after the words in front of it that can also be its name. -/
def memberAfterWords (rules : Rules) (isStatic isAccessible : Bool) : Recogniser Node := do
  let modifiers ← memberModifiers { isStatic }
  let next ← peek
  if modifiers.isStatic && (← isPunct "\x7b") then staticBlock rules
  else if (← isWord "static") && next.token == .punct "\x7b" then
    advance
    staticBlock rules
  else if modifiers.isAbstract || modifiers.isOverride || isAccessible then
    memberAfterModifiers rules modifiers
  else
    match ← indexSignature? rules with
    | some signature => return typeOf [signature]
    | none => memberAfterModifiers rules modifiers

/-- A member of a class. -/
def classMember (rules : Rules) : Recogniser Node := do
  let declaresFirst ← eatWord "declare"
  let isAccessible ← accessModifier?
  let declares ← if declaresFirst then pure true else eatWord "declare"
  match ← memberNamed? rules declares "declare" with
  | some member => return member
  | none =>
      let isStatic ← eatWord "static"
      match ← memberNamed? rules (isStatic && !(← isPunct "\x7b")) "static" with
      | some member => return member
      | none =>
          let isAccessor ← eatWord "accessor"
          match ← memberNamed? rules isAccessor "accessor" with
          | some member => return member
          | none => memberAfterWords rules isStatic isAccessible

/-- The members of a class in braces. -/
def classBody (rules : Rules) : Recogniser (List Node) := do
  expect "\x7b"
  readUntil "\x7d" fun read => do
    if ← eat ";" then return read else return (← classMember rules) :: read

/-- What a class extends, with its type arguments. -/
def superclass (rules : Rules) : Recogniser (List Node) := do
  let parent ← rules.leftHand
  let types ← if ← isPunct "<" then typeArguments rules else pure []
  return [parent, typeOf types]

/-- Names of types with commas between them. -/
def heritage (rules : Rules) : Recogniser (List Node) :=
  iterate [] fun read => do
    let type ← typeReference rules
    if ← eat "," then return .inl (type :: read)
    else return .inr (type :: read).reverse

/-- What a class extends, if the word for it is here. -/
def extends? (rules : Rules) : Recogniser (List Node) := do
  if ← eatWord "extends" then superclass rules else return []

/-- What a class implements, if the word for it is here. -/
def implements? (rules : Rules) : Recogniser (List Node) := do
  if ← eatWord "implements" then heritage rules else return []

/-- A class after its keyword.  What it extends more than once does not count. -/
def classTail (rules : Rules) (needsName : Bool) : Recogniser Node := do
  declaredName rules (if needsName then .required else .optional) true
  let typeParameters ← typeParameters? rules
  let parent ← extends? rules
  if ← eatIf (!parent.isEmpty) "," then
    let _ ← heritage rules
  else pure ()
  let _ ← extends? rules
  let implemented ← implements? rules
  let _ ← implements? rules
  let lateParent ← extends? rules
  let parent := if parent.isEmpty then lateParent else parent
  let members ← classBody rules
  return .node .classExpression
    (.node .classBody members :: (parent.take 1 ++ typeOf typeParameters :: parent.drop 1 ++
      [typeOf implemented]))

/-- A class from its keyword on. -/
def classFrom (rules : Rules) (needsName : Bool) : Recogniser Node := do
  expectWord "class"
  rules.classTail needsName

end Phrasebook.Source.Grammar
