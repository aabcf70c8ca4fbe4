import Phrasebook.Config.File
import Phrasebook.Session
import Phrasebook.Text.Width

/-!
# Reports

What a command prints when it has run: one block for each call without a literal
key, in the order of their places, then the sources that could not be read, a
summary, and the number of problems.
-/

namespace Phrasebook

open Text

/-- A source file that could not be read or parsed. -/
structure ParseFailure where
  file : String
  error : String
  deriving DecidableEq, Repr

/-- What an extraction found and did. -/
structure ExtractSummary where
  sourceFiles : Nat
  locales : List String
  base : String
  keyCount : Nat
  unknownCalls : List UnknownCall
  untranslatedCounts : List (String × Nat)
  parseFailures : List ParseFailure
  outDir : Path
  flush : Flush
  strict : Bool
  silent : Bool

/-- What a command has to tell. -/
inductive Summary where
  | extract (summary : ExtractSummary)
  | init (file : Path)

/-- The result of a command, with the numbers of errors and warnings. -/
structure CommandResult where
  summary : Summary
  errors : Nat
  warnings : Nat

namespace Report

/-- How calls without a literal key count. -/
inductive Severity where
  | error
  | warning
  deriving DecidableEq, Repr

/-- The colour of a severity. -/
def Severity.color : Severity → Color
  | .error => .red
  | .warning => .yellow

/-- The label of a severity. -/
def Severity.label : Severity → String
  | .error => "error"
  | .warning => "warning"

/-- One of two words, by number. -/
def plural (count : Nat) (one many : String) : String :=
  if count = 1 then one else many

/-- The label of a line that warns. -/
def warningLabel (colored : Bool) : String :=
  (Style.boldOf .yellow).paint colored "warning:"

/-- The line of the source with its number, and the caret below the place. -/
def sourceRows (colored : Bool) (severity : Severity) (gutter : Nat)
    (context : Context) : List String :=
  let bar := (Style.of .blue).paint colored "|"
  let margin := alignRight gutter ""
  let number := (Style.of .blue).paint colored
    (alignRight gutter (Nat.repr context.location.line))
  let before := context.sourceLine.toList.take (context.location.column - 1)
  let caret := (Style.of severity.color).paint colored "^"
  if context.sourceLine = "" then []
  else
    [margin ++ " " ++ bar,
     number ++ " " ++ bar ++ " " ++ context.sourceLine,
     margin ++ " " ++ bar ++ " " ++ alignRight (textWidth before) "" ++ caret]

/-- The block of a call; `gutter` is the width of the line numbers. -/
def callBlock (colored : Bool) (severity : Severity) (gutter : Nat)
    (call : UnknownCall) : List String :=
  let place := call.context.location
  let label := (Style.boldOf severity.color).paint colored severity.label
  [label ++ ": unknown translation key \"" ++ call.signature ++ "\"",
   "  " ++ (Style.of .blue).paint colored "-->" ++ " " ++ place.file ++ ":" ++
     Nat.repr place.line ++ ":" ++ Nat.repr place.column] ++
  sourceRows colored severity gutter call.context ++
  [alignRight gutter "" ++ " " ++ (Style.of .blue).paint colored "=" ++ " " ++
     (Style.boldOf .cyan).paint colored "hint:" ++
     " list the keys it can produce under 'unknownKeys' in " ++ Config.fileName,
   ""]

/-- The calls in the order of their places; calls of one place keep theirs. -/
def inOrder (calls : List UnknownCall) : List UnknownCall :=
  calls.mergeSort fun a b => a.context.location.le b.context.location

/-- The width of the widest line number. -/
def gutterWidth (calls : List UnknownCall) : Nat :=
  let last := calls.foldl (fun last call => max last call.context.location.line) 0
  (Nat.repr last).length

/-- The blocks of all calls. -/
def callBlocks (colored : Bool) (severity : Severity) (calls : List UnknownCall) :
    List String :=
  (inOrder calls).flatMap (callBlock colored severity (gutterWidth calls))

/-- The section on calls without a literal key. -/
def callSection (colored : Bool) (summary : ExtractSummary) : List String :=
  if summary.strict then callBlocks colored .error summary.unknownCalls
  else if !summary.silent then callBlocks colored .warning summary.unknownCalls
  else if summary.unknownCalls.isEmpty then []
  else
    [warningLabel colored ++ " " ++ Nat.repr summary.unknownCalls.length ++
      " translation call(s) with unknown keys (use " ++
      (Style.of .cyan).paint colored "-v" ++ " for details)"]

/-- The section on sources that could not be read. -/
def failureSection (colored verbose : Bool) (failures : List ParseFailure) :
    List String :=
  if failures.isEmpty then []
  else if verbose then
    failures.map fun failure =>
      warningLabel colored ++ " " ++ failure.file ++ ": " ++ failure.error
  else
    [warningLabel colored ++ " " ++ Nat.repr failures.length ++
      " file(s) could not be parsed (use " ++ (Style.of .cyan).paint colored "-v" ++
      " for details)"]

/-- A count with its noun. -/
def counted (count : Nat) (one many : String) : String :=
  Nat.repr count ++ " " ++ plural count one many

/-- What was written, or why nothing was. -/
def flushLine (colored : Bool) (outDir : Path) : Flush → String
  | .written files =>
      (Style.boldOf .green).paint colored "Wrote" ++ " " ++
        Nat.repr (files.localeFiles.length + files.reportFile.toList.length) ++
        " file(s) to " ++ outDir.text
  | .skipped =>
      (Style.boldOf .yellow).paint colored "Dry run:" ++ " nothing written to " ++
        outDir.text
  | .clean => "No changes to write."

/-- The summary of an extraction. -/
def summarySection (colored : Bool) (summary : ExtractSummary) : List String :=
  let headline :=
    "Extracted " ++ counted summary.keyCount "key" "keys" ++ " from " ++
      Nat.repr summary.sourceFiles ++ " source " ++
      plural summary.sourceFiles "file" "files" ++ " into " ++
      counted summary.locales.length "locale" "locales"
  let lacking := summary.locales.filterMap fun locale =>
    let count := (Table.get? summary.untranslatedCounts locale).getD 0
    if locale = summary.base ∨ count = 0 then none
    else
      some ("  - " ++ (Style.mk true none).paint colored locale ++ ": " ++
        Nat.repr count ++ " untranslated")
  [(Style.of .green).paint colored "✓" ++ " " ++
    (Style.of .green).paint colored headline] ++
  lacking ++ [flushLine colored summary.outDir summary.flush]

/-- The number of problems, if there are any. -/
def problemSection (colored : Bool) (errors warnings : Nat) : List String :=
  if errors + warnings = 0 then []
  else
    ["",
     (Style.of .red).paint colored "✘" ++ " " ++ Nat.repr (errors + warnings) ++
       " problems (" ++ Nat.repr errors ++ " " ++
       (Style.of .red).paint colored (plural errors "error" "errors") ++ ", " ++
       Nat.repr warnings ++ " " ++
       (Style.of .yellow).paint colored (plural warnings "warning" "warnings") ++ ")"]

/-- The lines of a report. -/
def lines (colored verbose : Bool) (result : CommandResult) : List String :=
  match result.summary with
  | .extract summary =>
      callSection colored summary ++
      failureSection colored verbose summary.parseFailures ++
      summarySection colored summary ++
      problemSection colored result.errors result.warnings
  | .init file =>
      [(Style.of .green).paint colored "✓" ++ " " ++
        (Style.of .green).paint colored ("Created " ++ file.text)]

/-- The text of a report. -/
def text (colored verbose : Bool) (result : CommandResult) : String :=
  String.join ((lines colored verbose result).map fun line => line ++ "\n")

end Report
end Phrasebook
