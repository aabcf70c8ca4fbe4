import Phrasebook.Glob.Pattern
import Phrasebook.Json.Printer
import Phrasebook.Path
import Phrasebook.Text.Blank

/-!
# Configurations

A configuration says where the locales are, which functions take keys, and which
sources count.  Every field has a default.  It is written as a JSON object with
its fields in a fixed order.
-/

namespace Phrasebook

open Json

/-- The settings of a project. -/
structure Config where
  localesPath : String := "./locales"
  localesOutPath : Option String := none
  fnNames : List String := ["t"]
  baseLang : String := "en"
  unknownKeys : List (String × List String) := []
  silent : Bool := true
  includes : List String := []
  ignores : List String := []
  ignoreTestFiles : Bool := true
  deriving DecidableEq, Repr

instance : Inhabited Config := ⟨{}⟩

/-- Why settings cannot be used. -/
inductive ConfigError where
  | invalidIgnore (pattern : String) (error : Glob.PatternError)
  | invalidInclude (pattern : String) (error : Glob.PatternError)
  | noFunctionNames
  | noBaseLang
  deriving DecidableEq, Repr

/-- The words for a configuration error. -/
def ConfigError.message : ConfigError → String
  | .invalidIgnore pattern error =>
      "Invalid glob pattern in 'ignores': \"" ++ pattern ++ "\": " ++ error.message
  | .invalidInclude pattern error =>
      "Invalid glob pattern in 'includes': \"" ++ pattern ++ "\": " ++ error.message
  | .noFunctionNames => "'fnNames' must contain at least one function name"
  | .noBaseLang => "'baseLang' must not be empty"

namespace Config

/-- The directory below the locales that takes the merged files by default. -/
def defaultOutDirName : String := "parsed"

/-- The directory of the locales, seen from a root. -/
def localesDir (config : Config) (root : Path) : Path :=
  root.join ⟨config.localesPath⟩

/-- The directory of the merged files, seen from a root. -/
def outDir (config : Config) (root : Path) : Path :=
  match config.localesOutPath with
  | some out => root.join ⟨out⟩
  | none => (config.localesDir root).join ⟨defaultOutDirName⟩

/-- The first pattern of a list that is none. -/
def firstInvalid? (patterns : List String) : Option (String × Glob.PatternError) :=
  patterns.findSome? fun pattern =>
    match Glob.Pattern.parse pattern with
    | .ok _ => none
    | .error error => some (pattern, error)

/-- Whether the settings can be used.  Every ignore entry must be a pattern, and
so must the include entries with a wildcard. -/
def validate (config : Config) : Except ConfigError Unit :=
  match firstInvalid? config.ignores with
  | some (pattern, error) => .error (.invalidIgnore pattern error)
  | none =>
      match firstInvalid? (config.includes.filter Glob.hasWildcard) with
      | some (pattern, error) => .error (.invalidInclude pattern error)
      | none =>
          if config.fnNames.all Text.isAllBlank then .error .noFunctionNames
          else if Text.isAllBlank config.baseLang then .error .noBaseLang
          else .ok ()

/-- A list of strings as a value. -/
def stringsValue (strings : List String) : Value :=
  .array (strings.map Value.string)

/-- The settings as a value; an output path that is not set is left out. -/
def toValue (config : Config) : Value :=
  .object <|
    [("localesPath", .string config.localesPath)] ++
    (match config.localesOutPath with
      | some out => [("localesOutPath", .string out)]
      | none => []) ++
    [("fnNames", stringsValue config.fnNames),
     ("baseLang", .string config.baseLang),
     ("unknownKeys", .object (config.unknownKeys.map fun (signature, keys) =>
        (signature, stringsValue keys))),
     ("silent", .bool config.silent),
     ("includes", stringsValue config.includes),
     ("ignores", stringsValue config.ignores),
     ("ignoreTestFiles", .bool config.ignoreTestFiles)]

/-- The settings as text without blanks. -/
def compact (config : Config) : String :=
  config.toValue.compact

/-- The text of a new configuration file. -/
def defaultText : String :=
  ({} : Config).toValue.pretty

end Config
end Phrasebook
