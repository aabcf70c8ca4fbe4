import Phrasebook.Source.Grammar.Types

/-!
# Names of properties and binding patterns

What a declaration, a parameter or an argument of `catch` binds: a name, or an array
or object of patterns.
-/

namespace Phrasebook.Source.Grammar

open Recogniser

/-- The name of a property. -/
inductive PropertyName where
  | name (text : String)
  | quoted (value : Option String)
  | number
  | hidden
  | computed (key : Node)

namespace PropertyName

/-- The name as a node. -/
def node : PropertyName → Node
  | .name text => .node .literal [.ident text]
  | .quoted value => .string value
  | .number => .leaf .literal
  | .hidden => .leaf .privateName
  | .computed key => .node .computed [key]

/-- Whether it is a given word. -/
def isNamed (property : PropertyName) (text : String) : Bool :=
  match property with
  | .name found => found == text
  | _ => false

/-- Whether it names the constructor of a class. -/
def isConstructor : PropertyName → Bool
  | .name text => text == "constructor"
  | .quoted value => value == some "constructor"
  | _ => false

end PropertyName

/-- The name of a property.  A computed name may hold commas. -/
def propertyName (rules : Rules) : Recogniser PropertyName := do
  match ← token with
  | .word name _ => do advance; return .name name
  | .string value => do advance; return .quoted value
  | .number => do advance; return .number
  | .punct "[" => do
      advance
      let key ← within (fun s => { s with allowIn := true }) rules.expression
      expect "]"
      return .computed key
  | _ => refuse

/-- A value after an equals sign, if there is one. -/
def initialValue? (rules : Rules) : Recogniser (Option Node) := do
  if ← eat "=" then
    return some (← within (fun s => { s with allowIn := true }) rules.assignment)
  else return none

/-- A pattern, with a default value if there is one. -/
def withDefault (target : Node) (value : Option Node) : Node :=
  match value with
  | some value => .node .assignment [target, value]
  | none => target

/-- A binding pattern that may have a default value. -/
def bindingElement (rules : Rules) : Recogniser Node := do
  let target ← rules.binding false
  return withDefault target (← initialValue? rules)

/-- The array pattern after its opening bracket. -/
def arrayPattern (rules : Rules) : Recogniser Node := do
  let items ← readUntil "]" fun read => do
    if ← eat "," then return read
    else
      let item ← if ← eat "..." then
          pure (Node.node .rest [← rules.binding false])
        else bindingElement rules
      commaBefore "]"
      return item :: read
  return .node .pattern items

/-- A member of an object pattern. -/
def memberPattern (rules : Rules) : Recogniser Node := do
  if ← eat "..." then return .node .rest [← rules.binding false]
  else
    let name ← propertyName rules
    if ← eat ":" then return .node .property [name.node, ← bindingElement rules]
    else
      match name with
      | .name text => return withDefault (.ident text) (← initialValue? rules)
      | _ => refuse

/-- A name or pattern that is bound; `forbidLet` forbids `let` as a name. -/
def binding (rules : Rules) (forbidLet : Bool) : Recogniser Node := do
  let current ← token
  match current with
  | .punct "[" => do
      advance
      arrayPattern rules
  | .punct "\x7b" => do
      advance
      return .node .pattern (← listUntil "\x7d" (memberPattern rules))
  | .word name _ =>
      if isBindable current && !(forbidLet && name == "let") then do
        advance
        return .ident name
      else refuse
  | _ => refuse

/-- A pattern with its type; one that is only a name stays recognisable. -/
def withType (pattern : Node) (type : List Node) : Node :=
  match pattern, type with
  | pattern, [] => pattern
  | .ident name, type => .node .typedName [.ident name, typeOf type]
  | pattern, type => .node .pattern [pattern, typeOf type]

/-- A parameter that takes all the arguments left, after its dots. -/
def restParameter (rules : Rules) : Recogniser Node := do
  let target ← rules.binding false
  let value ← initialValue? rules
  let type ← annotation? rules
  let _ ← eat "?"
  return .node .rest (target :: (value.toList ++ [typeOf type]))

/-- A parameter that is not the rest of them. -/
def singleParameter (rules : Rules) : Recogniser Node := do
  eatModifier
  let target ← bindingElement rules
  let _ ← eat "?"
  match target with
  | .node .assignment children => do
      let _ ← annotation? rules
      return withDefault (.node .assignment children) (← initialValue? rules)
  | target => do
      let target := withType target (← annotation? rules)
      return withDefault target (← initialValue? rules)

/-- Parameters up to the closing parenthesis. -/
def parameters (rules : Rules) : Recogniser (List Node) :=
  iterate [] fun read => do
    if (← isPunct ")") || (← atEnd) then return .inr read.reverse
    else
      let parameter ← if ← eat "..." then restParameter rules else singleParameter rules
      commaBefore ")"
      return .inl (parameter :: read)

end Phrasebook.Source.Grammar
