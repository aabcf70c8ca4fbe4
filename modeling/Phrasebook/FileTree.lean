import Phrasebook.Path
import Phrasebook.Table

/-!
# File trees

A file tree holds directories, files and symbolic links as one value, together
with the directory in which relative paths start.  A path is resolved part by
part; links on the way are followed, at most forty of them.  Every operation
that can fail says why, in the words of the system.
-/

namespace Phrasebook

/-- What a file holds: text, or bytes that are no text. -/
inductive Content where
  | text (value : String)
  | binary (bytes : List UInt8)
  deriving DecidableEq

/-- The content that bytes are: text, if they can be. -/
def Content.ofBytes (bytes : ByteArray) : Content :=
  match String.fromUTF8? bytes with
  | some value => .text value
  | none => .binary bytes.toList

/-- A node of a file tree. -/
inductive Entry where
  | file (content : Content)
  | link (target : String)
  | dir (entries : List (String × Entry))

instance : Inhabited Entry := ⟨.dir []⟩

/-- Why an operation on files fails. -/
inductive FileError where
  | notFound
  | alreadyExists
  | notDirectory
  | isDirectory
  | nameTooLong
  | tooManyLinks
  | nulInName
  | notText
  deriving DecidableEq, Repr

/-- The words for an error. -/
def FileError.message : FileError → String
  | .notFound => "No such file or directory (os error 2)"
  | .alreadyExists => "File exists (os error 17)"
  | .notDirectory => "Not a directory (os error 20)"
  | .isDirectory => "Is a directory (os error 21)"
  | .nameTooLong => "File name too long (os error 36)"
  | .tooManyLinks => "Too many levels of symbolic links (os error 40)"
  | .nulInName => "file name contained an unexpected NUL byte"
  | .notText => "stream did not contain valid UTF-8"

namespace Entry

/-- Whether the node is a directory. -/
def isDir : Entry → Bool
  | .dir _ => true
  | _ => false

/-- Whether the node is a file. -/
def isFile : Entry → Bool
  | .file _ => true
  | _ => false

/-- The node reached by following names downwards, links not followed. -/
def at? (entry : Entry) (location : List String) : Option Entry :=
  match location with
  | [] => some entry
  | name :: rest =>
      match entry with
      | .dir entries => (Table.get? entries name).bind fun entry => at? entry rest
      | _ => none

/-- The tree with a node at a location, whose directory must be there. -/
def put (entry : Entry) (location : List String) (new : Entry) : Entry :=
  match location with
  | [] => new
  | name :: rest =>
      match entry with
      | .dir entries =>
          let inner := ((Table.get? entries name).getD (.dir [])).put rest new
          .dir (Table.insert entries name inner)
      | other => other

/-- The tree without the node at a location. -/
def erase (entry : Entry) (location : List String) : Entry :=
  match location, entry with
  | [name], .dir entries => .dir (Table.erase entries name)
  | name :: rest, .dir entries =>
      match Table.get? entries name with
      | some inner => .dir (Table.put entries name (inner.erase rest))
      | none => .dir entries
  | _, other => other

end Entry

/-- A tree and the place where relative paths start, as names from the root. -/
structure FileTree where
  root : Entry
  here : List String

namespace FileTree

/-- Where a path leads: to a node, or to a free name in a directory, with a slash
behind it or without. -/
inductive Spot where
  | taken (location : List String)
  | free (directory : List String) (name : String) (slashed : Bool)
  deriving DecidableEq, Repr

/-- The texts between slashes that are not empty. -/
def pieces (text : String) : List String :=
  ((Path.split text.toList).filter (· ≠ [])).map String.ofList

/-- The steps that resolution takes; an empty one, for a trailing slash, asks for a
directory, as a final `.` does. -/
def steps (text : String) : List String :=
  if text.toList.getLast? = some '/' then pieces text ++ [""] else pieces text

/-- Take the steps of a path from a directory.  `onLink` says how to go on at a
link; a link in the last place is followed only with `followLast`. -/
def walk (tree : FileTree) (followLast : Bool)
    (onLink : List String → List String → Except FileError Spot) :
    List String → List String → Except FileError Spot
  | location, [] => .ok (.taken location)
  | location, step :: rest =>
      if step.utf8ByteSize > 255 then .error .nameTooLong
      else
        match tree.root.at? location with
        | some (.dir entries) =>
            if step = "" ∨ step = "." then walk tree followLast onLink location rest
            else if step = ".." then walk tree followLast onLink location.dropLast rest
            else
              match Table.get? entries step with
              | none => if rest.all (· = "") then .ok (.free location step (rest ≠ []))
                  else .error .notFound
              | some (.link target) =>
                  if rest = [] ∧ !followLast then .ok (.taken (location ++ [step]))
                  else
                    let start := if target.startsWith "/" then [] else location
                    onLink start (steps target ++ rest)
              | some _ => walk tree followLast onLink (location ++ [step]) rest
        | _ => .error .notDirectory

/-- Take the steps of a path, following a limited number of links. -/
def resolveFrom (tree : FileTree) (followLast : Bool) :
    Nat → List String → List String → Except FileError Spot
  | 0, location, steps =>
      tree.walk followLast (fun _ _ => .error .tooManyLinks) location steps
  | links + 1, location, steps =>
      tree.walk followLast (tree.resolveFrom followLast links) location steps

/-- The number of links a path may lead through. -/
def linkLimit : Nat := 40

/-- Where a path leads by some steps. -/
def resolveBy (tree : FileTree) (path : Path) (followLast : Bool) (steps : List String) :
    Except FileError Spot :=
  if path.text.toList.contains '\x00' then .error .nulInName
  else if path.text = "" then .error .notFound
  else if path.text.utf8ByteSize ≥ 4096 then .error .nameTooLong
  else
    tree.resolveFrom followLast linkLimit (if path.isAbsolute then [] else tree.here) steps

/-- Where a path leads. -/
def resolve (tree : FileTree) (path : Path) (followLast : Bool) : Except FileError Spot :=
  tree.resolveBy path followLast (steps path.text)

/-- The location of the node a path leads to. -/
def locate (tree : FileTree) (path : Path) (followLast : Bool) :
    Except FileError (List String) :=
  match tree.resolve path followLast with
  | .ok (.taken location) => .ok location
  | .ok (.free _ _ _) => .error .notFound
  | .error error => .error error

/-- The node a path leads to, links followed. -/
def entry (tree : FileTree) (path : Path) : Except FileError Entry := do
  let location ← tree.locate path true
  match tree.root.at? location with
  | some entry => .ok entry
  | none => .error .notFound

/-- The node a path names, a link in the last place not followed. -/
def entryItself (tree : FileTree) (path : Path) : Except FileError Entry := do
  let location ← tree.locate path false
  match tree.root.at? location with
  | some entry => .ok entry
  | none => .error .notFound

/-- Whether a path leads to something. -/
def pathExists (tree : FileTree) (path : Path) : Bool :=
  (tree.entry path).isOk

/-- Whether a path leads to a directory. -/
def isDir (tree : FileTree) (path : Path) : Bool :=
  match tree.entry path with
  | .ok entry => entry.isDir
  | .error _ => false

/-- Whether a path leads to a file. -/
def isFile (tree : FileTree) (path : Path) : Bool :=
  match tree.entry path with
  | .ok entry => entry.isFile
  | .error _ => false

/-- The names in a directory, in increasing order. -/
def names (tree : FileTree) (path : Path) : Except FileError (List String) :=
  match tree.entry path with
  | .ok (.dir entries) => .ok (Table.names entries)
  | .ok _ => .error .notDirectory
  | .error error => .error error

/-- The text of a file. -/
def readText (tree : FileTree) (path : Path) : Except FileError String :=
  match tree.entry path with
  | .ok (.file (.text value)) => .ok value
  | .ok (.file (.binary _)) => .error .notText
  | .ok _ => .error .isDirectory
  | .error error => .error error

/-- The tree with another node at a location. -/
def putAt (tree : FileTree) (location : List String) (entry : Entry) : FileTree :=
  { tree with root := tree.root.put location entry }

/-- Write a file: an existing one gets a new content, a free name a new file. -/
def write (tree : FileTree) (path : Path) (content : Content) :
    Except FileError FileTree := do
  match ← tree.resolve path true with
  | .taken location =>
      match tree.root.at? location with
      | some (.file _) => .ok (tree.putAt location (.file content))
      | some (.dir _) => .error .isDirectory
      | _ => .error .notFound
  | .free directory name slashed =>
      if slashed then .error .isDirectory
      else .ok (tree.putAt (directory ++ [name]) (.file content))

/-- Create one directory at a free name, which may have a slash behind it. -/
def createDir (tree : FileTree) (path : Path) : Except FileError FileTree := do
  match ← tree.resolveBy path false (pieces path.text) with
  | .taken _ => .error .alreadyExists
  | .free directory name _ => .ok (tree.putAt (directory ++ [name]) (.dir []))

/-- Create one directory; one that is there already will do. -/
def ensureDir (tree : FileTree) (path : Path) : Except FileError FileTree :=
  match tree.createDir path with
  | .ok tree => .ok tree
  | .error error =>
      if error = .alreadyExists ∧ tree.isDir path then .ok tree else .error error

/-- Create the directories of a list of ancestors, nearest first: those above
before those below.  One that is there already ends the search upwards.  The
directories made before a failure stay. -/
def createChain (tree : FileTree) : List Path → FileTree × Option FileError
  | [] => (tree, none)
  | path :: above =>
      if path.parts = [] then (tree, none)
      else
        match tree.ensureDir path with
        | .ok tree => (tree, none)
        | .error .notFound =>
            match createChain tree above with
            | (tree, none) =>
                match tree.ensureDir path with
                | .ok tree => (tree, none)
                | .error error => (tree, some error)
            | failed => failed
        | .error error => (tree, some error)

/-- Create a directory with all its missing ancestors. -/
def createDirs (tree : FileTree) (path : Path) : FileTree × Option FileError :=
  tree.createChain path.ancestors

/-- Remove the node a path names. -/
def remove (tree : FileTree) (path : Path) : Except FileError FileTree := do
  let location ← tree.locate path false
  .ok { tree with root := tree.root.erase location }

/-- Put a link at a path. -/
def addLink (tree : FileTree) (path : Path) (target : String) :
    Except FileError FileTree := do
  match ← tree.resolve path false with
  | .taken _ => .error .alreadyExists
  | .free directory name slashed =>
      if slashed then .error .notFound
      else .ok (tree.putAt (directory ++ [name]) (.link target))

mutual

/-- The files below a node with their paths, links not followed. -/
def filesBelow (above : String) : Entry → List (String × Content)
  | .file content => [(above, content)]
  | .link _ => []
  | .dir entries => filesIn above entries

/-- The files in a list of entries with their paths. -/
def filesIn (above : String) : List (String × Entry) → List (String × Content)
  | [] => []
  | (name, entry) :: rest =>
      filesBelow (if above = "" then name else above ++ "/" ++ name) entry ++
        filesIn above rest

end

/-- The files below the starting directory, in increasing order of their paths. -/
def files (tree : FileTree) : List (String × Content) :=
  match tree.root.at? tree.here with
  | some entry => Table.sorted (filesBelow "" entry)
  | none => []

/-- The files of a tree that are new, or have another content, compared with an
earlier tree. -/
def changesSince (tree earlier : FileTree) : List (String × Content) :=
  let before := earlier.files
  tree.files.filter fun (path, content) => Table.get? before path ≠ some content

/-- A tree with one empty directory, in which relative paths start. -/
def empty (name : String) : FileTree :=
  ⟨.dir [(name, .dir [])], [name]⟩

end FileTree
end Phrasebook
