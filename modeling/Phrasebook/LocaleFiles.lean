import Phrasebook.FileTree
import Phrasebook.Json.Printer

/-!
# Writing merged locales

One file `<locale>.json` is written for each locale, and the report of
untranslated keys when there is any.  The first failure ends the writing; what
was written before it stays.
-/

namespace Phrasebook

open Json

/-- The file name of the report of untranslated keys. -/
def reportFileName : String := "_untranslated.json"

/-- The files of one writing. -/
structure WrittenFiles where
  localeFiles : List Path
  reportFile : Option Path
  deriving DecidableEq, Repr

/-- Why the files cannot be written. -/
inductive WriteError where
  | noDirectory (dir : Path) (error : FileError)
  | unwritable (file : Path) (error : FileError)
  deriving DecidableEq, Repr

/-- The words for a write error. -/
def WriteError.message : WriteError → String
  | .noDirectory dir error =>
      "Failed to create directory: " ++ dir.text ++ ": " ++ error.message
  | .unwritable file error =>
      "Failed to write file: " ++ file.text ++ ": " ++ error.message

namespace LocaleFiles

/-- The text of a written value. -/
def fileText (value : Value) : String :=
  value.pretty ++ "\n"

/-- The file of a locale in a directory. -/
def localeFile (dir : Path) (locale : String) : Path :=
  dir.join ⟨locale ++ ".json"⟩

/-- The report file in a directory. -/
def reportFile (dir : Path) : Path :=
  dir.join ⟨reportFileName⟩

/-- Write values to files, one after the other. -/
def writeAll (tree : FileTree) :
    List (Path × Value) → FileTree × Except WriteError Unit
  | [] => (tree, .ok ())
  | (file, value) :: rest =>
      match tree.write file (.text (fileText value)) with
      | .ok tree => writeAll tree rest
      | .error error => (tree, .error (.unwritable file error))

/-- Write the merged locales and the report into a directory, which is created
with all its missing ancestors. -/
def write (tree : FileTree) (dir : Path) (outputs untranslated : List (String × Value)) :
    FileTree × Except WriteError WrittenFiles :=
  match tree.createDirs dir with
  | (tree, some error) => (tree, .error (.noDirectory dir error))
  | (tree, none) =>
      let files := outputs.map fun (locale, mapping) => (localeFile dir locale, mapping)
      let report :=
        if untranslated = [] then [] else [(reportFile dir, Value.object untranslated)]
      match writeAll tree (files ++ report) with
      | (tree, .error error) => (tree, .error error)
      | (tree, .ok ()) =>
          (tree, .ok ⟨files.map Prod.fst, (report.map Prod.fst).head?⟩)

end LocaleFiles
end Phrasebook
