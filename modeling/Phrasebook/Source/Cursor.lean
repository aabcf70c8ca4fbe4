import Phrasebook.Source.Token
import Phrasebook.Source.Tree

/-!
# Reading positions and recognisers

A cursor stands before a token.  A recogniser takes tokens from it and answers with
a value and the cursor behind them, or refuses at some cursor.  The place of a
refusal counts, because a few constructs go on from there.
-/

namespace Phrasebook.Source

/-- What surrounds the place that is read. -/
structure Surroundings where
  /-- Inside an asynchronous function. -/
  inAsync : Bool := false
  /-- Inside a generator. -/
  inGenerator : Bool := false
  /-- Whether `in` is an operator here. -/
  allowIn : Bool := true
  /-- Inside a branch of a conditional expression. -/
  inConditional : Bool := false
  /-- Before the colon of a conditional expression. -/
  colonExpected : Bool := false
  /-- Whether a type may be conditional here. -/
  conditionalTypes : Bool := true
  /-- Inside a declaration without implementation. -/
  inDeclare : Bool := false

/-- A reading position. -/
structure Cursor where
  /-- A bound on the length of the text. -/
  size : Nat
  /-- Whether elements of markup can be expressions. -/
  markup : Bool
  /-- The text after the previous token. -/
  behind : List Char
  /-- The current token. -/
  current : Lexeme
  /-- The number of tokens before the current one. -/
  index : Nat
  /-- The index of the token at which an arrow function may begin. -/
  arrowStart : Option Nat
  surroundings : Surroundings

/-- The answer of a recogniser. -/
inductive Answer (α : Type) where
  | ok (value : α) (cursor : Cursor)
  | refused (cursor : Cursor)

/-- A recogniser. -/
def Recogniser (α : Type) := Cursor → Answer α

namespace Recogniser

instance : Monad Recogniser where
  pure value := fun cursor => .ok value cursor
  bind recogniser next := fun cursor =>
    match recogniser cursor with
    | .ok value cursor => next value cursor
    | .refused cursor => .refused cursor

instance {α : Type} : Inhabited (Recogniser α) := ⟨.refused⟩

/-- Refuse here. -/
def refuse {α : Type} : Recogniser α :=
  .refused

/-- The current cursor. -/
def cursor : Recogniser Cursor :=
  fun cursor => .ok cursor cursor

/-- A property of the current cursor. -/
def ask {α : Type} (property : Cursor → α) : Recogniser α :=
  fun cursor => .ok (property cursor) cursor

/-- Refuse at a cursor from which nothing goes on. -/
def giveUp {α : Type} : Recogniser α :=
  fun cursor => .refused { cursor with current := { cursor.current with token := .bad } }

/-- Read something; where it is refused, nothing goes on. -/
def orGiveUp {α : Type} (recogniser : Recogniser α) : Recogniser α :=
  fun cursor =>
    match recogniser cursor with
    | .ok value cursor => .ok value cursor
    | .refused cursor => giveUp cursor

/-- Refuse unless a condition holds. -/
def require (condition : Bool) : Recogniser Unit :=
  if condition then pure () else refuse

/-- Read in other surroundings; the ones outside are back afterwards. -/
def within {α : Type} (change : Surroundings → Surroundings) (recogniser : Recogniser α) :
    Recogniser α :=
  fun cursor =>
    let outside := cursor.surroundings
    match recogniser { cursor with surroundings := change outside } with
    | .ok value cursor => .ok value { cursor with surroundings := outside }
    | .refused cursor => .refused { cursor with surroundings := outside }

/-- Read something that may not be there: a refusal leaves the cursor where it
was. -/
def attempt {α : Type} (recogniser : Recogniser α) : Recogniser (Option α) :=
  fun cursor =>
    match recogniser cursor with
    | .ok value cursor => .ok (some value) cursor
    | .refused _ => .ok none cursor

/-- Read something, or go on with `value` from where it is refused. -/
def recover {α : Type} (recogniser : Recogniser α) (value : α) : Recogniser α :=
  fun cursor =>
    match recogniser cursor with
    | .ok value cursor => .ok value cursor
    | .refused cursor => .ok value cursor

/-- Read something in one of two ways.  If both are refused, the first refusal
counts. -/
def firstOf {α : Type} (first second : Recogniser α) : Recogniser α :=
  fun cursor =>
    match first cursor with
    | .ok value cursor => .ok value cursor
    | .refused place =>
        match second cursor with
        | .ok value cursor => .ok value cursor
        | .refused _ => .refused place

/-- Whether something could be read here. -/
def lookAhead {α : Type} (recogniser : Recogniser α) : Recogniser Bool :=
  fun cursor =>
    match recogniser cursor with
    | .ok _ _ => .ok true cursor
    | .refused _ => .ok false cursor

/-- Repeat a step until it answers with a result.  `fuel` bounds the number of
steps. -/
def repeatFrom {σ α : Type} (step : σ → Recogniser (σ ⊕ α)) : Nat → σ → Recogniser α
  | 0, _ => refuse
  | fuel + 1, state => do
      match ← step state with
      | .inl state => repeatFrom step fuel state
      | .inr value => return value

/-- Repeat a step that takes a token each time until it answers with a result. -/
def iterate {σ α : Type} (state : σ) (step : σ → Recogniser (σ ⊕ α)) : Recogniser α := do
  repeatFrom step ((← ask Cursor.size) + 2) state

/-! ## Tokens -/

/-- The current token. -/
def token : Recogniser Token :=
  ask fun cursor => cursor.current.token

/-- Whether a line break precedes the current token. -/
def afterNewline : Recogniser Bool :=
  ask fun cursor => cursor.current.newline

/-- The token after the current one. -/
def peek : Recogniser Lexeme :=
  ask fun cursor => Lexeme.next cursor.size false cursor.current.rest

/-- The text from the current token on. -/
def here : Recogniser (List Char) :=
  ask fun cursor => cursor.current.start

/-- The text after the current token. -/
def ahead : Recogniser (List Char) :=
  ask fun cursor => cursor.current.rest

/-- The text after the previous token. -/
def behind : Recogniser (List Char) :=
  ask Cursor.behind

/-- Go to the token after a text that has been read. -/
def continueAfter (rest : List Char) : Recogniser Unit :=
  fun cursor =>
    .ok () { cursor with
      behind := rest
      current := Lexeme.next cursor.size false rest
      index := cursor.index + 1 }

/-- Note that an arrow function may begin at the current token, or that none may. -/
def markArrowStart (mayBegin : Bool) : Recogniser Unit := fun cursor =>
  .ok () { cursor with arrowStart := if mayBegin then some cursor.index else none }

/-- Whether an arrow function may begin at the current token. -/
def mayBeArrow : Recogniser Bool :=
  ask fun cursor => cursor.arrowStart == some cursor.index

/-- Take the current token. -/
def advance : Recogniser Unit := do
  continueAfter (← ahead)

/-- Whether the current token is a punctuator. -/
def isPunct (text : String) : Recogniser Bool :=
  return (← token) == .punct text

/-- Whether the current token is one of some punctuators. -/
def isAnyPunct (texts : List String) : Recogniser Bool := do
  match ← token with
  | .punct text => return texts.contains text
  | _ => return false

/-- Whether the current token is a word. -/
def isWord (name : String) : Recogniser Bool := do
  match ← token with
  | .word found escaped => return found == name && !escaped
  | _ => return false

/-- Whether the current token is one of some words. -/
def isAnyWord (names : List String) : Recogniser Bool := do
  match ← token with
  | .word found escaped => return names.contains found && !escaped
  | _ => return false

/-- Take a punctuator if it is there. -/
def eat (text : String) : Recogniser Bool := do
  if ← isPunct text then
    advance
    return true
  else return false

/-- Take a punctuator if a condition holds and it is there. -/
def eatIf (condition : Bool) (text : String) : Recogniser Bool :=
  if condition then eat text else return false

/-- Take a word if it is there. -/
def eatWord (name : String) : Recogniser Bool := do
  if ← isWord name then
    advance
    return true
  else return false

/-- Take a punctuator, which must be there. -/
def expect (text : String) : Recogniser Unit := do
  if ← isPunct text then advance else refuse

/-- Take a word, which must be there. -/
def expectWord (name : String) : Recogniser Unit := do
  if ← isWord name then advance else refuse

/-- Whether the text ends here. -/
def atEnd : Recogniser Bool :=
  return (← token) == .eof

/-- Whether a statement may end here: before a semicolon or a closing brace, at the
end, or after a line break. -/
def statementMayEnd : Recogniser Bool := do
  match ← token with
  | .punct ";" => return true
  | .punct "\x7d" => return true
  | .eof => return true
  | _ => afterNewline

/-- Take a semicolon, or nothing where a statement may end without one. -/
def eatSemicolon : Recogniser Bool := do
  if ← eat ";" then return true else statementMayEnd

/-- The end of a statement must be here. -/
def expectSemicolon : Recogniser Unit := do
  if ← eatSemicolon then pure () else refuse

/-- Words that cannot be identifiers. -/
def keywords : List String :=
  ["break", "case", "catch", "class", "const", "continue", "debugger", "default",
   "delete", "do", "else", "export", "extends", "false", "finally", "for", "function",
   "if", "import", "in", "instanceof", "new", "null", "return", "super", "switch",
   "this", "throw", "true", "try", "typeof", "var", "void", "while", "with"]

/-- Words that are no keywords, but cannot be referred to in a module. -/
def moduleReserved : List String :=
  ["await", "yield", "enum", "implements", "interface", "package", "private",
   "protected", "public"]

/-- Whether a token is an identifier that can be referred to. -/
def isReference (token : Token) : Bool :=
  match token with
  | .word name _ => !keywords.contains name && !moduleReserved.contains name
  | _ => false

/-- Whether a token is an identifier that a declaration can bind. -/
def isBindable (token : Token) : Bool :=
  match token with
  | .word name _ => name == "this" || (!keywords.contains name && name != "await")
  | _ => false

/-- Whether a token is a word of any kind. -/
def isAnyName (token : Token) : Bool :=
  match token with
  | .word _ _ => true
  | _ => false

/-- Whether a token is a word of a given spelling. -/
def isNamed (token : Token) (name : String) : Bool :=
  match token with
  | .word found escaped => found == name && !escaped
  | _ => false

/-- Take a word of any kind. -/
def anyName : Recogniser String := do
  match ← token with
  | .word name _ => do
      advance
      return name
  | _ => refuse

/-- Cut the current token after its first character. -/
def cutToken (first : String) : Recogniser Unit := fun cursor =>
  let rest := cursor.current.start.drop 1
  .ok () { cursor with current := { cursor.current with token := .punct first, rest } }

/-- Take an opening angle bracket, also the first of two. -/
def expectOpenAngle : Recogniser Unit := do
  match ← token with
  | .punct "<" => advance
  | .punct "<<" => do
      cutToken "<"
      advance
  | _ => refuse

/-- Whether type arguments or parameters may begin here. -/
def isOpenAngle : Recogniser Bool :=
  isAnyPunct ["<", "<<"]

end Recogniser

/-- The cursor at the beginning of a text. -/
def Cursor.start (markup : Bool) (text : List Char) : Cursor :=
  let size := text.length
  let rest := Lexeme.skipInterpreterLine text
  { size
    markup
    behind := rest
    current := Lexeme.next size true rest
    index := 0
    arrowStart := none
    surroundings := {} }

end Phrasebook.Source
