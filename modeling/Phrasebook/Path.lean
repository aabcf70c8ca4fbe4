/-!
# Paths

A path is kept as it was written, because messages and results show it so.  Its
parts are what it means: repeated and trailing slashes and inner `.` parts do
not count.
-/

namespace Phrasebook

/-- A path as written. -/
structure Path where
  text : String
  deriving DecidableEq, Repr

namespace Path

instance : Inhabited Path := ⟨⟨""⟩⟩

/-- Whether the path starts at the root. -/
def isAbsolute (path : Path) : Bool :=
  path.text.toList.head? == some '/'

/-- The texts between slashes, empty ones included. -/
def split : List Char → List (List Char)
  | [] => [[]]
  | c :: rest =>
      if c = '/' then [] :: split rest
      else
        match split rest with
        | [] => [[c]]
        | part :: parts => (c :: part) :: parts

/-- A part of a path. -/
inductive Part where
  | root
  | here
  | up
  | name (text : String)
  deriving DecidableEq, Repr

/-- The part a text between slashes stands for. -/
def Part.ofText (text : List Char) : Part :=
  if text = ['.'] then .here
  else if text = ['.', '.'] then .up
  else .name (String.ofList text)

/-- The text of a part. -/
def Part.text : Part → String
  | .root => "/"
  | .here => "."
  | .up => ".."
  | .name text => text

/-- The parts of a path: a leading slash, a leading `.`, and then everything but
empty texts and `.`. -/
def parts (path : Path) : List Part :=
  let pieces := (split path.text.toList).filter (· ≠ [])
  let body (pieces : List (List Char)) : List Part :=
    (pieces.map Part.ofText).filter (· ≠ .here)
  if path.isAbsolute then .root :: body pieces
  else
    match pieces with
    | ['.'] :: rest => .here :: body rest
    | _ => body pieces

/-- The right path seen from the left one.  An absolute right path replaces the
left one. -/
def join (left right : Path) : Path :=
  if right.isAbsolute then right
  else if left.text = "" ∨ left.text.toList.getLast? = some '/' then
    ⟨left.text ++ right.text⟩
  else ⟨left.text ++ "/" ++ right.text⟩

/-- Whether the parts of `base` begin the parts of the path. -/
def startsWith (path base : Path) : Bool :=
  base.parts.isPrefixOf path.parts

/-- The last name, unless the path ends in `..` or names nothing. -/
def fileName? (path : Path) : Option String :=
  match path.parts.getLast? with
  | some (.name text) => some text
  | _ => none

/-- A file name cut at its last point; a leading point does not count. -/
def splitName (name : List Char) : List Char × Option (List Char) :=
  let ending := (name.reverse.takeWhile (· ≠ '.')).reverse
  let before := name.take (name.length - ending.length - 1)
  if ending.length = name.length ∨ before = [] ∨ name = ['.', '.'] then (name, none)
  else (before, some ending)

/-- The file name up to its last point. -/
def fileStem? (path : Path) : Option String :=
  path.fileName?.map fun name => String.ofList (splitName name.toList).1

/-- The file name after its last point. -/
def extension? (path : Path) : Option String :=
  path.fileName?.bind fun name => (splitName name.toList).2.map String.ofList

/-- The text without slashes and `.` parts at its end.  The flag says whether a
`.` that is all of the text stays. -/
def trimEnd (keepHere : Bool) : Nat → List Char → List Char
  | 0, reversed => reversed
  | fuel + 1, reversed =>
      match reversed with
      | '/' :: [] => ['/']
      | '/' :: rest => trimEnd keepHere fuel rest
      | '.' :: [] => if keepHere then ['.'] else []
      | '.' :: '/' :: rest => trimEnd keepHere fuel ('/' :: rest)
      | reversed => reversed

/-- The path without its last part, as it was written up to there.  The root and
the empty path have none. -/
def parent? (path : Path) : Option Path :=
  match path.parts.getLast? with
  | none => none
  | some .root => none
  | some .here => some ⟨""⟩
  | some last =>
      let reversed := trimEnd true path.text.length path.text.toList.reverse
      let shorter := reversed.drop last.text.length
      some ⟨String.ofList (trimEnd true shorter.length shorter).reverse⟩

/-- The path and all its ancestors, nearest first. -/
def ancestors (path : Path) : List Path :=
  go (path.text.length + 1) path
where
  go : Nat → Path → List Path
    | 0, path => [path]
    | fuel + 1, path =>
        match path.parent? with
        | none => [path]
        | some above => path :: go fuel above

end Path
end Phrasebook
