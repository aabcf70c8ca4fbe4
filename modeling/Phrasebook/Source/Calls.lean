import Phrasebook.Call
import Phrasebook.Path
import Phrasebook.Source.Grammar
import Phrasebook.Text.Runs
import Phrasebook.Text.Width

/-!
# Calls in source files

A source file is read into a tree, in which calls of functions with given names are
looked up.  A call comes before those inside it.
-/

namespace Phrasebook.Source

/-- A call in a tree: the texts from its beginning and its end on, what is called, and
the arguments. -/
structure CallExpression where
  start : List Char
  stop : List Char
  callee : Node
  arguments : List Node

namespace Node

mutual

/-- The calls in a tree, each before those inside it. -/
def callExpressions : Node → List CallExpression
  | .ident _ => []
  | .string _ => []
  | .call start stop callee arguments types =>
      ⟨start, stop, callee, arguments⟩ ::
        (callee.callExpressions ++ callsOfAll arguments ++ callsOfAll types)
  | .node _ children => callsOfAll children

/-- The calls in some trees. -/
def callsOfAll : List Node → List CallExpression
  | [] => []
  | first :: rest => first.callExpressions ++ callsOfAll rest

end

end Node

/-- A source file that has been read. -/
structure File where
  name : String
  text : List Char
  tree : Node

namespace File

/-- Whether elements of markup can be expressions in a file of a name.  Where angle
brackets are casts they cannot. -/
def allowsMarkup (name : String) : Bool :=
  match (Path.mk name).extension? with
  | some ending => ending != "ts" && ending != "mts" && ending != "cts"
  | none => true

/-- The text of a file without a mark of byte order in front. -/
def textOf (code : String) : List Char :=
  match code.toList with
  | c :: rest => if c.toNat = 0xFEFF then rest else c :: rest
  | [] => []

/-- Read a source file; `none` if it does not follow the grammar. -/
def parse (name code : String) : Option File :=
  let text := textOf code
  (Grammar.parse (allowsMarkup name) text).map fun tree => ⟨name, text, tree⟩

/-- The number of the line in which a place lies, and the text from the beginning of
that line on; `distance` is left to the place. -/
def lineFrom (line : Nat) (lineStart : List Char) : List Char → Nat → Nat × List Char
  | _, 0 => (line, lineStart)
  | [], _ => (line, lineStart)
  | '\r' :: '\n' :: rest, distance + 1 =>
      match distance with
      | 0 => (line, lineStart)
      | distance + 1 => lineFrom (line + 1) rest rest distance
  | c :: rest, distance + 1 =>
      if c = '\n' ∨ c = '\r' then lineFrom (line + 1) rest rest distance
      else lineFrom line lineStart rest distance

/-- The columns of a character in a line of source text: its width, and one more where
it takes two UTF-16 units. -/
def columns (c : Char) : Nat :=
  if c = '\t' then 4
  else if c.toNat > 0xFFFF then Text.charWidth c + 1
  else Text.charWidth c

/-- The place of a text in a file, with its line. -/
def context (file : File) (start : List Char) : Context :=
  let (line, lineStart) :=
    lineFrom 1 file.text file.text (file.text.length - start.length)
  let before := lineStart.take (lineStart.length - start.length)
  { location :=
      { file := file.name
        line
        column := before.foldl (fun width c => width + columns c) 1 }
    sourceLine := String.ofList (lineStart.takeWhile (· ≠ '\n')) }

/-- A text with its blanks reduced to one space between words. -/
def collapse (text : List Char) : String :=
  " ".intercalate ((Text.runs Text.isBlank text).map String.ofList)

/-- The text of a call, with its blanks reduced. -/
def signature (call : CallExpression) : String :=
  collapse (call.start.take (call.start.length - call.stop.length))

/-- What a call of a function with one of some names passes as its key; `none` if
another one is called or nothing is passed. -/
def key? (names : List String) (call : CallExpression) : Option CallKey :=
  match call.callee, call.arguments with
  | .ident name, first :: _ =>
      if names.contains name then
        match first with
        | .string (some value) =>
            some (if value.isEmpty then .unknown (signature call) else .literal value)
        | _ => some (.unknown (signature call))
      else none
  | _, _ => none

/-- A call of a function with one of some names, with its place. -/
def site? (file : File) (names : List String) (call : CallExpression) : Option CallSite :=
  (key? names call).map fun key => ⟨file.context call.start, key⟩

/-- The calls of functions with some names, in the order of the file. -/
def calls (file : File) (names : List String) : List CallSite :=
  file.tree.callExpressions.filterMap (file.site? names)

end File
end Phrasebook.Source
