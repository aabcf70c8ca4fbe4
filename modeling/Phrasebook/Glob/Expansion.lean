import Phrasebook.FileTree
import Phrasebook.Glob.Pattern

/-!
# Expanding patterns on a file tree

A pattern is cut at slashes, and each component is matched against the names in
the directories reached so far.  A component without wildcards is looked up
instead.  Hidden names count; a component that starts with a literal point can
also stand for `.` and `..`.
-/

namespace Phrasebook.Glob

/-- Whether a path means the directory where the search starts. -/
def isHere (path : Path) : Bool :=
  path.parts == [.here]

/-- The path of a name in a directory; the starting directory is not written. -/
def below (path : Path) (name : String) : Path :=
  if isHere path then ⟨name⟩ else path.join ⟨name⟩

/-- How results are taken: with a trailing slash only directories count. -/
structure Search where
  tree : FileTree
  directoriesOnly : Bool

/-- Whether a path can be a result. -/
def Search.admits (search : Search) (path : Path) : Bool :=
  !search.directoriesOnly || search.tree.isDir path

/-- Whether something stands at a path, even a link that leads nowhere. -/
def Search.has (search : Search) (path : Path) : Bool :=
  search.tree.pathExists path || (search.tree.entryItself path).isOk

mutual

/-- The results of components below a path. -/
def Search.from (search : Search) : Nat → List Pattern → Path → List Path
  | 0, _, _ => []
  | _ + 1, [], path => if search.admits path then [path] else []
  | fuel + 1, pattern :: rest, path =>
      match pattern.literal? with
      | some name =>
          let next := below path name
          let special := name = "." ∨ name = ".."
          if (special ∧ search.tree.isDir path) ∨ (¬special ∧ search.has next) then
            search.from fuel rest next
          else []
      | none =>
          match search.tree.names path with
          | .error _ => []
          | .ok names =>
              let children := names.flatMap fun name =>
                search.at fuel (pattern :: rest) (below path name)
              let specials :=
                if pattern.tokens.head? = some (.char '.') then [".", ".."] else []
              let around := (specials.filter pattern.matchesText).flatMap fun name =>
                search.from fuel rest (path.join ⟨name⟩)
              children ++ around

/-- The results of components at a child that was found by listing. -/
def Search.at (search : Search) : Nat → List Pattern → Path → List Path
  | 0, _, _ => []
  | _ + 1, [], _ => []
  | fuel + 1, pattern :: rest, path =>
      if pattern.isRecursive then
        let rest := rest.dropWhile Pattern.isRecursive
        let deeper :=
          if search.tree.isDir path then search.from fuel (pattern :: rest) path else []
        match rest with
        | [] => if search.tree.isDir path then path :: deeper else []
        | _ => deeper ++ search.named fuel rest path
      else search.named fuel (pattern :: rest) path

/-- The results of components of which the first stands for the name of a
path. -/
def Search.named (search : Search) : Nat → List Pattern → Path → List Path
  | 0, _, _ => []
  | _ + 1, [], _ => []
  | fuel + 1, pattern :: rest, path =>
      if path.fileName?.any pattern.matchesText then
        match rest with
        | [] => if search.admits path then [path] else []
        | _ => search.from fuel rest path
      else []

end

/-- The components of a pattern text; a final slash ends the last one. -/
def components (text : List Char) : List String :=
  let pieces := Path.split text
  let kept := if pieces.getLast? = some [] then pieces.dropLast else pieces
  kept.map String.ofList

/-- The longest chain of steps to names that a path of limited length can take. -/
def stepLimit : Nat := 12288

/-- All paths a pattern stands for. -/
def expand (tree : FileTree) (text : String) : Except PatternError (List Path) := do
  let _ ← Pattern.parse text
  let chars := text.toList
  let absolute := chars.takeWhile (· == '/')
  let patterns ← (components (chars.drop absolute.length)).mapM Pattern.parse
  let start : Path := if absolute = [] then ⟨"."⟩ else ⟨String.ofList absolute⟩
  let search : Search := ⟨tree, chars.getLast? = some '/'⟩
  return if patterns = [] then [] else search.from (stepLimit + patterns.length) patterns start

end Phrasebook.Glob
