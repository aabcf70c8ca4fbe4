import Phrasebook.Glob.Expansion
import Phrasebook.Text.Color

/-!
# Finding source files

A scan walks the include directories below a root and keeps the source files
that no ignore entry excludes.  An entry with a wildcard is a glob pattern, any
other one a path below the root.  Directories of dependencies and version control
are not entered.
-/

namespace Phrasebook.Scan

open Glob

/-- Patterns of test files. -/
def testFilePatterns : List String :=
  ["**/*.test.tsx", "**/*.test.ts", "**/*.test.jsx", "**/*.test.js",
   "**/*.spec.tsx", "**/*.spec.ts", "**/*.spec.jsx", "**/*.spec.js",
   "**/__tests__/**"]

/-- Names of directories that are not entered. -/
def skippedDirs : List String :=
  ["node_modules", ".git"]

/-- The extensions of source files. -/
def sourceExtensions : List String :=
  ["tsx", "ts", "jsx", "js", "mjs", "cjs", "mts", "cts"]

/-- What a scan could not use. -/
inductive Warning where
  | invalidIgnore (pattern : String) (error : PatternError)
  | invalidInclude (pattern : String) (error : PatternError)
  | missingInclude (path : Path)
  | inaccessible (path : Path) (error : FileError)
  deriving DecidableEq, Repr

/-- The line a warning is shown as. -/
def Warning.line (colored : Bool) (warning : Warning) : String :=
  let words := match warning with
    | .invalidIgnore pattern error =>
        "Invalid ignore pattern '" ++ pattern ++ "': " ++ error.message
    | .invalidInclude pattern error =>
        "Invalid glob pattern '" ++ pattern ++ "': " ++ error.message
    | .missingInclude path => "Include path does not exist: " ++ path.text
    | .inaccessible path error =>
        "Cannot access path: IO error for operation on " ++ path.text ++ ": " ++
          error.message
  (Text.Style.boldOf .yellow).paint colored "warning:" ++ " " ++ words ++ "\n"

/-- What to scan, and what to leave out. -/
structure Request where
  root : Path
  includes : List String
  ignores : List String
  ignoreTestFiles : Bool

/-- The files found, in increasing order, the number of places that could not be
entered, and the warnings in order. -/
structure Result where
  files : List String
  skipped : Nat
  warnings : List Warning

/-- What excludes files: paths and patterns. -/
structure Exclusions where
  paths : List Path
  patterns : List Pattern

/-- The exclusions of a request, and the ignore entries that are no patterns. -/
def exclusions (request : Request) : Exclusions × List Warning :=
  let globs := request.ignores.filter hasWildcard
  let literals := request.ignores.filter fun ignore => !hasWildcard ignore
  let patterns := globs.filterMap fun glob => (Pattern.parse glob).toOption
  let tests :=
    if request.ignoreTestFiles then
      testFilePatterns.filterMap fun glob => (Pattern.parse glob).toOption
    else []
  let warnings := globs.filterMap fun glob =>
    match Pattern.parse glob with
    | .ok _ => none
    | .error error => some (.invalidIgnore glob error)
  (⟨literals.map fun ignore => request.root.join ⟨ignore⟩, patterns ++ tests⟩, warnings)

/-- Whether a path is excluded. -/
def Exclusions.cover (exclusions : Exclusions) (path : Path) : Bool :=
  exclusions.paths.any path.startsWith ||
    exclusions.patterns.any fun pattern => pattern.matchesText path.text

/-- The places where one include entry starts the scan. -/
def includeStarts (tree : FileTree) (root : Path) (entry : String) :
    List Path × List Warning :=
  let path := root.join ⟨entry⟩
  if hasWildcard entry then
    match expand tree path.text with
    | .ok found => (found.filter tree.isDir, [])
    | .error error => ([], [.invalidInclude entry error])
  else if tree.pathExists path then ([path], [])
  else ([], [.missingInclude path])

/-- All places where the scan starts; the root without include entries. -/
def starts (tree : FileTree) (request : Request) : List Path × List Warning :=
  match request.includes with
  | [] => ([request.root], [])
  | includes =>
      let each := includes.map (includeStarts tree request.root)
      (each.flatMap Prod.fst, each.flatMap Prod.snd)

mutual

/-- The paths of everything at and below a node, links not followed. -/
def pathsBelow (path : Path) : Entry → List Path
  | .file _ => [path]
  | .link _ => [path]
  | .dir entries => path :: pathsIn path entries

/-- The paths of everything at and below the entries of a directory. -/
def pathsIn (path : Path) : List (String × Entry) → List Path
  | [] => []
  | (name, entry) :: rest =>
      (if entry.isDir && skippedDirs.contains name then []
        else pathsBelow (path.join ⟨name⟩) entry) ++ pathsIn path rest

end

/-- The paths at and below a start.  A start that is a link is entered. -/
def walk (tree : FileTree) (start : Path) : Except FileError (List Path) := do
  match ← tree.entryItself start with
  | .link _ => return pathsBelow start (← tree.entry start)
  | entry => return pathsBelow start entry

/-- Whether the extension is that of a source file. -/
def isSourceName (path : Path) : Bool :=
  path.extension?.any sourceExtensions.contains

/-- Whether a scan keeps a path: a source file that nothing excludes. -/
def keeps (tree : FileTree) (exclusions : Exclusions) (path : Path) : Bool :=
  !exclusions.cover path && tree.isFile path && isSourceName path

/-- Strings in increasing order without repetitions. -/
def sortedSet (texts : List String) : List String :=
  Table.names (Table.sorted (texts.map fun text => (text, ())))

/-- The result of scanning what a request asks for. -/
def run (tree : FileTree) (request : Request) : Result :=
  let (exclusions, ignoreWarnings) := exclusions request
  let (starts, includeWarnings) := starts tree request
  let walks := starts.map fun start => (start, walk tree start)
  let paths := walks.flatMap fun (_, found) => found.toOption.getD []
  let failures := walks.filterMap fun (start, found) =>
    match found with
    | .ok _ => none
    | .error error => some (Warning.inaccessible start error)
  { files := sortedSet ((paths.filter (keeps tree exclusions)).map Path.text)
    skipped := failures.length
    warnings := ignoreWarnings ++ includeWarnings ++ failures }

end Phrasebook.Scan
