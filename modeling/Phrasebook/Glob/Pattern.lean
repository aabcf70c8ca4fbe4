/-!
# Glob patterns

A pattern is matched against a whole text.  `?` stands for any character and `*`
for any run of characters, slashes included; `**` is a whole component and stands
for any number of components; brackets list characters and ranges of them.
-/

namespace Phrasebook.Glob

/-- A bracketed item: a character or a range, both ends included. -/
inductive Specifier where
  | single (c : Char)
  | range (low high : Char)
  deriving DecidableEq, Repr

/-- A piece of a pattern. -/
inductive Token where
  | char (c : Char)
  | anyChar
  | anySequence
  | anyComponents
  | within (specifiers : List Specifier)
  | except (specifiers : List Specifier)
  deriving DecidableEq, Repr

/-- What is wrong with a pattern. -/
inductive Problem where
  | wildcards
  | recursiveWildcards
  | invalidRange
  deriving DecidableEq, Repr

/-- What is wrong with a pattern, and at which character. -/
structure PatternError where
  position : Nat
  problem : Problem
  deriving DecidableEq, Repr

/-- The words for a pattern error. -/
def PatternError.message (error : PatternError) : String :=
  let words := match error.problem with
    | .wildcards =>
        "wildcards are either regular \x60*\x60 or recursive \x60**\x60"
    | .recursiveWildcards => "recursive wildcards must form a single path component"
    | .invalidRange => "invalid range pattern"
  "Pattern syntax error near position " ++ Nat.repr error.position ++ ": " ++ words

/-- A pattern: its pieces in order. -/
structure Pattern where
  tokens : List Token
  deriving DecidableEq, Repr

/-- Whether a text has a wildcard; without one it is meant literally. -/
def hasWildcard (text : String) : Bool :=
  text.toList.any fun c => c == '*' || c == '?'

/-- The items between brackets; `a-b` is a range. -/
def specifiers : List Char → List Specifier
  | a :: '-' :: b :: rest => .range a b :: specifiers rest
  | c :: rest => .single c :: specifiers rest
  | [] => []

/-- The text up to the first closing bracket, and what follows it. -/
def untilBracket : List Char → Option (List Char × List Char)
  | [] => none
  | c :: rest =>
      if c = ']' then some ([], rest)
      else (untilBracket rest).map fun (inside, after) => (c :: inside, after)

/-- A bracketed piece after its opening bracket.  The first listed character may
be a closing bracket. -/
def bracketed? : List Char → Option (Token × List Char)
  | '!' :: first :: rest =>
      (untilBracket rest).map fun (inside, after) =>
        (.except (specifiers (first :: inside)), after)
  | '!' :: _ => none
  | first :: rest =>
      (untilBracket rest).map fun (inside, after) =>
        (.within (specifiers (first :: inside)), after)
  | [] => none

/-- Add a recursive wildcard, unless it repeats the one before it.  Two at the
very beginning of a pattern stay. -/
def addAnyComponents (reversed : List Token) : List Token :=
  match reversed with
  | .anyComponents :: _ :: _ => reversed
  | _ => .anyComponents :: reversed

/-- The pieces of a pattern.  `position` counts the characters before `text`,
`before` is the last of them, and `reversed` holds the pieces so far. -/
def tokenize : Nat → Nat → Option Char → List Token → List Char →
    Except PatternError (List Token)
  | 0, _, _, reversed, _ => .ok reversed.reverse
  | _ + 1, _, _, reversed, [] => .ok reversed.reverse
  | fuel + 1, position, before, reversed, c :: text =>
      if c = '?' then tokenize fuel (position + 1) (some c) (.anyChar :: reversed) text
      else if c = '*' then
        let count := 1 + (text.takeWhile (· == '*')).length
        let rest := text.dropWhile (· == '*')
        let after := position + count
        if count > 2 then .error ⟨position + 2, .wildcards⟩
        else if count = 1 then
          tokenize fuel after (some c) (.anySequence :: reversed) rest
        else if before = none ∨ before = some '/' then
          match rest with
          | [] => tokenize fuel after (some c) (addAnyComponents reversed) []
          | next :: rest =>
              if next = '/' then
                tokenize fuel (after + 1) (some next) (addAnyComponents reversed) rest
              else .error ⟨after, .recursiveWildcards⟩
        else .error ⟨position - 1, .recursiveWildcards⟩
      else if c = '[' then
        match bracketed? text with
        | some (token, rest) =>
            tokenize fuel (position + 1 + (text.length - rest.length)) (some ']')
              (token :: reversed) rest
        | none => .error ⟨position, .invalidRange⟩
      else tokenize fuel (position + 1) (some c) (.char c :: reversed) text

/-- The pattern a text stands for. -/
def Pattern.parse (text : String) : Except PatternError Pattern :=
  (tokenize (text.length + 1) 0 none [] text.toList).map Pattern.mk

/-- Whether a listed item stands for a character. -/
def Specifier.allows (c : Char) : Specifier → Bool
  | .single d => c == d
  | .range low high => low ≤ c && c ≤ high

/-- Whether a piece that stands for one character stands for this one. -/
def Token.accepts (c : Char) : Token → Bool
  | .char d => c == d
  | .anyChar => true
  | .within specifiers => specifiers.any (Specifier.allows c)
  | .except specifiers => !specifiers.any (Specifier.allows c)
  | .anySequence => false
  | .anyComponents => false

/-- Whether a test holds of the text or of one of its ends. -/
def anyEnd (test : List Char → Bool) : List Char → Bool
  | [] => test []
  | c :: rest => test (c :: rest) || anyEnd test rest

/-- Whether a test holds of an end of the text that follows a slash, or of the
empty end. -/
def anyComponentEnd (test : List Char → Bool) : List Char → Bool
  | [] => test []
  | c :: rest => (c == '/' && test rest) || anyComponentEnd test rest

/-- Whether pieces match a whole text. -/
def matchTokens : List Token → List Char → Bool
  | [], text => text.isEmpty
  | .anySequence :: tokens, text => anyEnd (matchTokens tokens) text
  | .anyComponents :: tokens, text =>
      matchTokens tokens text || anyComponentEnd (matchTokens tokens) text
  | _ :: _, [] => false
  | token :: tokens, c :: text => token.accepts c && matchTokens tokens text

/-- Whether a pattern matches a whole text. -/
def Pattern.matchesText (pattern : Pattern) (text : String) : Bool :=
  matchTokens pattern.tokens text.toList

/-- Whether a pattern stands for any number of components. -/
def Pattern.isRecursive (pattern : Pattern) : Bool :=
  pattern.tokens.contains .anyComponents

/-- The text a pattern without wildcards stands for. -/
def Pattern.literal? (pattern : Pattern) : Option String :=
  let chars := pattern.tokens.mapM fun
    | .char c => some c
    | _ => none
  chars.map String.ofList

end Phrasebook.Glob
