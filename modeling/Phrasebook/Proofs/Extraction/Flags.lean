import Phrasebook.Program
import Phrasebook.Proofs.Session.Flags
import Phrasebook.Proofs.Session.UnknownCalls

/-!
# Flags of an extraction

The flags of an extraction say what it tells and whether it writes.  They do not matter to what it
reads and merges: up to the end of its session, extractions that differ in their flags are one.
-/

namespace Phrasebook.Extraction

open CommandLine

variable {tree : FileTree} {arguments : ExtractArguments} {config : Config}

/-- The arguments with other flags. -/
def withFlags (arguments : ExtractArguments) (verbose dryRun strict : Bool) : ExtractArguments :=
  { arguments with verbose, dryRun, strict }

/-- The arguments without flags. -/
def plain (arguments : ExtractArguments) : ExtractArguments :=
  withFlags arguments false false false

/-- What the sources of a project have become: calls, or the reason why they were not read. -/
def sources (tree : FileTree) (config : Config) (root : Path) :
    List (Except ParseFailure (List CallSite)) :=
  (Scan.run tree (scanOf config root)).files.map (callsIn tree config.fnNames)

/-- The calls in all sources of a project. -/
def allCalls (tree : FileTree) (config : Config) (root : Path) : List CallSite :=
  (sources tree config root).flatMap fun found => found.toOption.getD []

/-- The session of an extraction up to where it is left. -/
def merging (tree : FileTree) (config : Config) (root : Path) (dryRun : Bool) : Session.Step :=
  ((Session.start (optionsOf config root dryRun)).enter tree).andThen
    fun session => session.registerAll tree (allCalls tree config root)

/-- How an extraction ends from the step its session has come to, after some warnings. -/
def ended (tree : FileTree) (arguments : ExtractArguments) (config : Config)
    (warned : List Message) (read : List (Except ParseFailure (List CallSite)))
    (step : Session.Step) : Completion :=
  let told := warned ++ step.notices.map .session
  match step.result with
  | .error error => ⟨tree, told, .error (.session error)⟩
  | .ok () =>
      let left := step.session.exit tree
      { tree := left.tree
        messages := told ++ left.notices.map .session
        result :=
          match left.result with
          | .error error => .error (.session error)
          | .ok flush =>
              .ok (resultOf arguments config read.length left.session (failuresOf read) flush) }

variable {warned : List Message} {read : List (Except ParseFailure (List CallSite))}
variable {step : Session.Step}

end Phrasebook.Extraction
