/-!
# Runs of characters

A text is cut into its maximal runs of characters that do not separate.  Key
paths are cut at points and brackets, source texts at blanks.
-/

namespace Phrasebook.Text

/-- A run that has come to its end; an empty one does not count. -/
def closeRun (run : List Char) : List (List Char) :=
  if run = [] then [] else [run]

/-- The runs of a text that follows the beginning of a run. -/
def runsAfter (separates : Char → Bool) (run : List Char) :
    List Char → List (List Char)
  | [] => closeRun run
  | c :: rest =>
      if separates c then closeRun run ++ runsAfter separates [] rest
      else runsAfter separates (run ++ [c]) rest

/-- The maximal runs of characters that do not separate. -/
def runs (separates : Char → Bool) (text : List Char) : List (List Char) :=
  runsAfter separates [] text

end Phrasebook.Text
