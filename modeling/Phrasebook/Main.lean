import Phrasebook.Program

/-!
# The command line

The files that a run can need are read into a tree, the program is run on the tree,
and the files it changed are written.
-/

namespace Phrasebook.Main

/-- The names of a location in the file system. -/
def locationOf (path : String) : List String :=
  FileTree.pieces path

/-- The path of a location. -/
def pathOf (location : List String) : String :=
  "/" ++ "/".intercalate location

/-- Whether the content of a file can matter. -/
def isRead (name : String) : Bool :=
  (Path.mk name).extension?.any fun ending =>
    ending == "json" || Scan.sourceExtensions.contains ending

/-- The directory at a path with everything in it.  Directories that no scan enters
stay empty. -/
partial def readDirectory (path : String) : IO Entry := do
  let mut entries := []
  for found in ← (← IO.FS.realPath path).readDir do
    let name := found.fileName
    let below := found.path.toString
    match (← found.path.symlinkMetadata).type with
    | .dir =>
        let entry ← if Scan.skippedDirs.contains name then pure (.dir [])
          else readDirectory below
        entries := Table.insert entries name entry
    | .file =>
        let content ← if isRead name then .ofBytes <$> IO.FS.readBinFile below
          else pure (.text "")
        entries := Table.insert entries name (.file content)
    | .symlink =>
        let target ← try (·.toString) <$> IO.FS.realPath below catch _ => pure name
        entries := Table.insert entries name (.link target)
    | .other => pure ()
  return .dir entries

/-- The tree with the configuration files of a directory and those above it. -/
def readAbove (tree : FileTree) : List String → IO FileTree
  | [] => return tree
  | location => do
      let mut tree := tree
      for length in List.range location.length do
        let above := location.take length
        let settings := above ++ [Config.fileName]
        let control := above ++ [".git"]
        let hasSettings ← try
            let _ ← IO.FS.realPath (pathOf settings)
            pure true
          catch _ => pure false
        let hasControl ← try
            let _ ← IO.FS.realPath (pathOf control)
            pure true
          catch _ => pure false
        if hasSettings then
          let content ← IO.FS.readBinFile (pathOf settings)
          tree := tree.putAt settings (.file (.ofBytes content))
        if hasControl then tree := tree.putAt control (.dir [])
      return tree

/-- The tree with a directory, if it is there. -/
def readPlace (tree : FileTree) (path : String) : IO FileTree := do
  try
    let location := locationOf (← IO.FS.realPath path).toString
    if tree.root.at? location |>.isSome then return tree
    let entry ← readDirectory (pathOf location)
    return (← readAbove tree location).putAt location entry
  catch _ => return tree

/-- The tree that a run with some arguments needs. -/
def readTree (arguments : List String) : IO FileTree := do
  let here := locationOf (← IO.FS.realPath ".").toString
  let tree : FileTree := ⟨.dir [], here⟩
  let tree ← readAbove tree here
  let tree := tree.putAt here (← readDirectory (pathOf here))
  match CommandLine.parse arguments with
  | .ok (.extract arguments) => do
      let root := Extraction.root arguments
      let tree ← readPlace tree root.text
      match Extraction.configOf tree arguments with
      | .ok config => do
          let tree ← readPlace tree (config.localesDir root).text
          readPlace tree (config.outDir root).text
      | .error _ => return tree
  | _ => return tree

/-- Write the files that are new or have changed. -/
def writeChanges (before after : FileTree) : IO Unit := do
  let fromRoot (tree : FileTree) : FileTree := { tree with here := [] }
  for (path, content) in (fromRoot after).changesSince (fromRoot before) do
    let location := locationOf path
    IO.FS.createDirAll (pathOf location.dropLast)
    match content with
    | .text value => IO.FS.writeFile (pathOf location) value
    | .binary bytes => IO.FS.writeBinFile (pathOf location) ⟨bytes.toArray⟩

/-- Whether output is coloured: on a terminal, unless the user asks for none. -/
def isColored : IO Bool := do
  if (← IO.getEnv "NO_COLOR").isSome then return false
  else (← IO.getStdout).isTty

end Phrasebook.Main

open Phrasebook in
/-- Run the program on the files of the current directory. -/
def main (arguments : List String) : IO UInt32 := do
  let tree ← Main.readTree arguments
  let outcome := Program.run (← Main.isColored) tree arguments
  Main.writeChanges tree outcome.tree
  IO.eprint outcome.errorOutput
  IO.print outcome.output
  return outcome.status.code.toUInt32
