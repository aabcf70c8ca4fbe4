import Phrasebook.Config.Decoder
import Phrasebook.FileTree

/-!
# Configuration files

The configuration of a directory is the nearest configuration file, looked for in
the directory and upwards, but not beyond one under version control.
-/

namespace Phrasebook.Config

/-- The name of a configuration file. -/
def fileName : String := ".gleanrc.json"

/-- Why a configuration file cannot be used. -/
inductive LoadError where
  | unreadable (error : FileError)
  | unparsable (file : Path) (fault : String)
  | invalid (error : ConfigError)
  deriving DecidableEq, Repr

/-- The words for a load error. -/
def LoadError.message : LoadError → String
  | .unreadable error => error.message
  | .unparsable file fault =>
      "Failed to parse config file: " ++ Text.quote file.text ++ ": " ++ fault
  | .invalid error => error.message

/-- The first configuration file of a list of directories; a directory under
version control ends the search. -/
def findIn (tree : FileTree) : List Path → Option Path
  | [] => none
  | dir :: above =>
      let file := dir.join ⟨fileName⟩
      if tree.pathExists file then some file
      else if tree.pathExists (dir.join ⟨".git"⟩) then none
      else findIn tree above

/-- The configuration file for a directory. -/
def find? (tree : FileTree) (start : Path) : Option Path :=
  findIn tree start.ancestors

/-- A configuration, and whether it comes from a file. -/
structure Loaded where
  config : Config
  fromFile : Bool

/-- The configuration for a directory; the default one without a file. -/
def load (tree : FileTree) (start : Path) : Except LoadError Loaded :=
  match find? tree start with
  | none => .ok ⟨{}, false⟩
  | some file => do
      let text ← (tree.readText file).mapError .unreadable
      let config ← (parse text).mapError (.unparsable file)
      config.validate.mapError .invalid
      return ⟨config, true⟩

end Phrasebook.Config
