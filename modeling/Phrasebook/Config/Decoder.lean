import Phrasebook.Config.Basic
import Phrasebook.Json.Reader
import Phrasebook.Json.Skip
import Phrasebook.Json.Typed

/-!
# Reading configurations

A configuration is a JSON object, whose unknown members are skipped, or an array
of the fields in order, of which the last ones may be missing.  No field may be
given twice.
-/

namespace Phrasebook.Config

open Json

/-- The fields of a configuration. -/
inductive Field where
  | localesPath
  | localesOutPath
  | fnNames
  | baseLang
  | unknownKeys
  | silent
  | includes
  | ignores
  | ignoreTestFiles
  deriving DecidableEq, Repr

/-- All fields in their order. -/
def Field.all : List Field :=
  [.localesPath, .localesOutPath, .fnNames, .baseLang, .unknownKeys, .silent,
   .includes, .ignores, .ignoreTestFiles]

/-- The name of a field. -/
def Field.name : Field → String
  | .localesPath => "localesPath"
  | .localesOutPath => "localesOutPath"
  | .fnNames => "fnNames"
  | .baseLang => "baseLang"
  | .unknownKeys => "unknownKeys"
  | .silent => "silent"
  | .includes => "includes"
  | .ignores => "ignores"
  | .ignoreTestFiles => "ignoreTestFiles"

/-- The field with a name.  The output path has a second one. -/
def Field.ofName? (name : String) : Option Field :=
  if name = "localeOutPath" then some .localesOutPath
  else Field.all.find? fun field => field.name = name

/-- Read a field's value into a configuration. -/
def readField (config : Config) (field : Field) (text : List Char) : Reply Config :=
  match field with
  | .localesPath =>
      (Typed.string text).map fun (v, rest) => ({ config with localesPath := v }, rest)
  | .localesOutPath =>
      (Typed.optionalString text).map fun (v, rest) =>
        ({ config with localesOutPath := v }, rest)
  | .fnNames =>
      (Typed.strings text).map fun (v, rest) => ({ config with fnNames := v }, rest)
  | .baseLang =>
      (Typed.string text).map fun (v, rest) => ({ config with baseLang := v }, rest)
  | .unknownKeys =>
      (Typed.stringsTable text).map fun (v, rest) =>
        ({ config with unknownKeys := v }, rest)
  | .silent =>
      (Typed.bool text).map fun (v, rest) => ({ config with silent := v }, rest)
  | .includes =>
      (Typed.strings text).map fun (v, rest) => ({ config with includes := v }, rest)
  | .ignores =>
      (Typed.strings text).map fun (v, rest) => ({ config with ignores := v }, rest)
  | .ignoreTestFiles =>
      (Typed.bool text).map fun (v, rest) => ({ config with ignoreTestFiles := v }, rest)

/-- The fields of an array, which may end before any of them. -/
def readFields (config : Config) (first : Bool) :
    List Field → List Char → Except Fault (Config × List Char)
  | [], text => .ok (config, text)
  | field :: fields, text => do
      let (more, rest) ← Typed.moreItems first text
      if more then
        let (config, rest) ← readField config field rest
        readFields config false fields rest
      else return (config, rest)

/-- The fault for a field that comes again.  It is found before the value; the
brace that ends the object counts as read if it follows at once. -/
def repeated (field : Field) (text : List Char) : Fault :=
  match Lexeme.skipBlanks text with
  | '}' :: rest => .behind (.duplicateField field.name) rest
  | rest => .behind (.duplicateField field.name) rest

/-- The members of an object after its opening brace; `seen` are the fields that
came before. -/
def readMembers : Nat → Config → List Field → Bool → List Char →
    Except Fault (Config × List Char)
  | 0, _, _, _, text => .error (.ahead .eofObject text)
  | fuel + 1, config, seen, first, text => do
      match ← Typed.nextName first text with
      | (none, rest) => return (config, rest.drop 1)
      | (some name, rest) =>
          match Field.ofName? name with
          | none =>
              let rest ← Skip.value (2 * rest.length + 2) (← Typed.colon rest)
              readMembers fuel config seen false rest
          | some field =>
              if seen.contains field then throw (repeated field rest)
              else
                let (config, rest) ← readField config field (← Typed.colon rest)
                readMembers fuel config (field :: seen) false rest

/-- A configuration with blanks in front, as an object or an array. -/
def readBody (text : List Char) : Except Fault (Config × List Char) :=
  match Lexeme.skipBlanks text with
  | '[' :: rest => do
      let (config, rest) ← readFields {} true Field.all rest
      let rest ← Typed.endOfArray rest
      return (config, rest)
  | '{' :: rest => readMembers (rest.length + 1) {} [] true rest
  | rest => throw (Typed.mismatch "struct Config" rest)

/-- The configuration a text stands for. -/
def read (text : List Char) : Except Fault Config := do
  let (config, rest) ← readBody text
  expectEnd rest
  return config

/-- The configuration a text stands for, or the message that says why there is
none. -/
def parse (text : String) : Except String Config :=
  (read text.toList).mapError fun fault => fault.message text.toList

end Phrasebook.Config
