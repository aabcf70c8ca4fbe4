import Phrasebook.Source.Grammar.Literals

/-!
# Elements of markup

An element is a name in angle brackets with attributes, text, expressions in braces
and further elements, up to the closing name.  Names and text are read from the
characters, since they are not made of the usual tokens.
-/

namespace Phrasebook.Source.Grammar

open Recogniser

/-- A name in markup, which may hold hyphens. -/
def markupWord : Recogniser (List Char) := do
  match ← here with
  | [] => refuse
  | c :: rest =>
      if Text.startsIdentifier c then
        let fits (c : Char) : Bool := Text.continuesIdentifier c || c == '-'
        continueAfter (rest.dropWhile fits)
        return c :: rest.takeWhile fits
      else refuse

/-- The name of an element: a word, with a namespace or with members. -/
inductive ElementName where
  | word (name : List Char)
  | inSpace (space name : List Char)
  | member (object : ElementName) (name : List Char)
  deriving DecidableEq

/-- The name of an element. -/
def elementName : Recogniser ElementName := do
  let first ← markupWord
  if ← eat ":" then return .inSpace first (← markupWord)
  else
    iterate (ElementName.word first) fun name => do
      if ← eat "." then return .inl (.member name (← markupWord))
      else return .inr name

/-- An expression in braces after the opening one; the closing one is not taken. -/
def bracedExpression (rules : Rules) : Recogniser Node :=
  within (fun s => { s with
      allowIn := true
      inConditional := false
      colonExpected := false }) do
    let node ← rules.expression
    require (← isPunct "\x7d")
    return node

/-- The value of an attribute.  A string has no escapes. -/
def attributeValue (rules : Rules) : Recogniser (List Node) := do
  match ← here with
  | '\x7b' :: rest => do
      continueAfter rest
      let value ← bracedExpression rules
      advance
      return [value]
  | '<' :: rest => do
      continueAfter rest
      let value ← rules.element
      advance
      return [value]
  | quote :: rest =>
      if quote = '"' ∨ quote = '\'' then
        match rest.dropWhile (· ≠ quote) with
        | [] => refuse
        | _ :: after => do
            continueAfter after
            return []
      else refuse
  | [] => refuse

/-- An attribute, or attributes spread from an object. -/
def elementAttribute (rules : Rules) : Recogniser (List Node) := do
  if ← eat "\x7b" then
    expect "..."
    let node ← within (fun s => { s with allowIn := true }) rules.assignment
    expect "\x7d"
    return [node]
  else
    let _ ← markupWord
    if ← eat ":" then
      let _ ← markupWord
    else pure ()
    if ← eat "=" then attributeValue rules else return []

/-- The attributes of an element. -/
def elementAttributes (rules : Rules) : Recogniser (List Node) :=
  iterate [] fun read => do
    if ← isAnyPunct ["/", ">"] then return .inr read
    else return .inl (read ++ (← elementAttribute rules))

/-- What an element holds behind the current token, up to the name after the closing
slash. -/
def elementContent (rules : Rules) : Recogniser (List Node) :=
  iterate [] fun read => do
    match (← ahead).dropWhile fun c => !(c == '<' || c == '\x7b') with
    | '<' :: rest =>
        continueAfter rest
        if ← eat "/" then return .inr read
        else return .inl (read ++ [← rules.element])
    | '\x7b' :: rest =>
        continueAfter rest
        if ← isPunct "\x7d" then return .inl read
        else
          let _ ← eat "..."
          return .inl (read ++ [← bracedExpression rules])
    | _ => refuse

/-- An element after its opening bracket, up to its last one, which is not taken. -/
def elementTail (rules : Rules) : Recogniser Node := do
  if ← isPunct ">" then
    let content ← elementContent rules
    require (← isPunct ">")
    return .node .element content
  else
    let name ← elementName
    let types ← if ← isOpenAngle then typeArguments rules else pure []
    let attributes ← elementAttributes rules
    if ← eat "/" then
      require (← isPunct ">")
      return .node .element (attributes ++ [typeOf types])
    else
      let content ← elementContent rules
      require ((← elementName) = name)
      require (← isPunct ">")
      return .node .element (attributes ++ typeOf types :: content)

end Phrasebook.Source.Grammar
