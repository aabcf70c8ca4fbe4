import Phrasebook.FileTree
import Phrasebook.Json.Reader
import Phrasebook.Json.Value

/-!
# Locale stores

A locale store holds the translations of every locale as they were found.  On
disk each file `<locale>.json` directly inside the locales directory is one
locale.  A locale file that cannot be read or parsed makes the whole store
unavailable, since merging without it would drop its translations.
-/

namespace Phrasebook

open Json

/-- The reserved member of a locale that lists calls without a literal key. -/
def unknownBucket : String := "__UNKNOWN"

/-- The translations of all locales, by increasing locale name, and the files
they come from. -/
structure LocaleStore where
  locales : List (String × Value)
  files : List Path
  increasing : Table.Increasing locales

instance : Inhabited LocaleStore := ⟨[], [], Table.increasing_nil⟩

/-- Why a store cannot be loaded. -/
inductive LoadError where
  | noDirectory (dir : Path)
  | notADirectory (dir : Path)
  | unlistable (dir : Path) (error : FileError)
  | unreadable (file : Path) (error : FileError)
  | unparsable (file : Path) (fault : String)
  deriving DecidableEq, Repr

/-- The words for a load error. -/
def LoadError.message : LoadError → String
  | .noDirectory dir =>
      "Locales directory '" ++ dir.text ++ "' does not exist.\n" ++
        "Hint: Check your .gleanrc.json 'localesPath' setting."
  | .notADirectory dir => "'" ++ dir.text ++ "' is not a directory."
  | .unlistable dir error =>
      "Failed to read locales directory: " ++ dir.text ++ ": " ++ error.message
  | .unreadable file error =>
      "Failed to read locale file: " ++ file.text ++ ": " ++ error.message
  | .unparsable file fault =>
      "Failed to parse locale file: " ++ file.text ++ ": " ++ fault

namespace LocaleStore

/-- A store of given translations. -/
def ofLocales (locales : List (String × Value)) : LocaleStore :=
  ⟨Table.sorted locales, [], Table.increasing_sorted locales⟩

/-- The translations of a locale. -/
def get? (store : LocaleStore) (locale : String) : Option Value :=
  Table.get? store.locales locale

/-- Whether the store has a locale. -/
def contains (store : LocaleStore) (locale : String) : Bool :=
  Table.contains store.locales locale

/-- The locale names in increasing order. -/
def names (store : LocaleStore) : List String :=
  Table.names store.locales

/-- The locale a file holds: its name without the extension. -/
def localeOf? (file : Path) : Option String :=
  file.fileStem?

/-- The translations in a locale file. -/
def readLocale (tree : FileTree) (file : Path) : Except LoadError Value := do
  let text ← (tree.readText file).mapError (.unreadable file)
  (Value.parse text).mapError (.unparsable file)

/-- Take one directory entry into a store, if it is a locale file. -/
def addEntry (tree : FileTree) (store : LocaleStore) (file : Path) :
    Except LoadError LocaleStore :=
  match localeOf? file with
  | some locale =>
      if tree.isFile file ∧ file.extension? = some "json" then do
        let value ← readLocale tree file
        return ⟨Table.insert store.locales locale value, store.files ++ [file],
          store.increasing.insert locale value⟩
      else .ok store
  | none => .ok store

/-- Take directory entries into a store, one after the other. -/
def addEntries (tree : FileTree) (store : LocaleStore) :
    List Path → Except LoadError LocaleStore
  | [] => .ok store
  | file :: rest => do
      let store ← addEntry tree store file
      addEntries tree store rest

/-- The store of the locale files among directory entries, listed in any order.  Its
files are in the order of their paths. -/
def ofListing (tree : FileTree) (listing : List Path) : Except LoadError LocaleStore := do
  let store ← addEntries tree default listing
  return { store with files := store.files.mergeSort fun a b => a.text ≤ b.text }

/-- The store of the locale files in a directory. -/
def load (tree : FileTree) (dir : Path) : Except LoadError LocaleStore :=
  if !tree.pathExists dir then .error (.noDirectory dir)
  else if !tree.isDir dir then .error (.notADirectory dir)
  else
    match tree.names dir with
    | .error error => .error (.unlistable dir error)
    | .ok names => ofListing tree (names.map fun name => dir.join ⟨name⟩)

/-- The keys a resolved bucket entry lists: its nonempty strings. -/
def listedKeys : Value → List String
  | .array items => items.filterMap fun
      | .string key => if key = "" then none else some key
      | _ => none
  | _ => []

/-- The entries of a locale's unknown bucket. -/
def bucketOf (locale : Value) : List (String × Value) :=
  match locale.member? unknownBucket with
  | some (.object entries) => entries
  | _ => []

/-- The signatures whose bucket entry was replaced by a list of keys, each with
the keys of the first locale that lists any. -/
def resolvedUnknowns (store : LocaleStore) : List (String × List String) :=
  let listed := store.locales.flatMap fun (_, value) =>
    (bucketOf value).map fun (signature, entry) => (signature, listedKeys entry)
  listed.foldl
    (fun resolved (signature, keys) =>
      if keys = [] ∨ Table.contains resolved signature then resolved
      else Table.insert resolved signature keys)
    []

end LocaleStore
end Phrasebook
