import Phrasebook.CommandLine.Wording
import Phrasebook.Extraction

/-!
# The program

The program takes its arguments and the files it is run among, and answers with an
exit code, what it prints, and the files it leaves.
-/

namespace Phrasebook

/-- How a run of the program ends. -/
inductive ExitStatus where
  | success
  | failure
  | error
  deriving DecidableEq, Repr

/-- The exit code of a status. -/
def ExitStatus.code : ExitStatus → Nat
  | .success => 0
  | .failure => 1
  | .error => 2

/-- A run of the program. -/
structure Outcome where
  status : ExitStatus
  output : String
  errorOutput : String
  tree : FileTree

namespace Program

/-- The status of a command that ran to its end. -/
def statusOf (result : CommandResult) : ExitStatus :=
  if result.errors > 0 then .failure else .success

/-- The outcome of a command. -/
def outcomeOf (colored verbose : Bool) (completion : Completion) : Outcome :=
  let told := String.join (completion.messages.map (Message.line colored))
  match completion.result with
  | .ok result =>
      ⟨statusOf result, Report.text colored verbose result, told, completion.tree⟩
  | .error error =>
      ⟨.error, "", told ++ "Error: " ++ error.message ++ "\n", completion.tree⟩

/-- Run the program with some arguments. -/
def run (colored : Bool) (tree : FileTree) (arguments : List String) : Outcome :=
  match CommandLine.parse arguments with
  | .error error => ⟨.error, "", error.text, tree⟩
  | .ok .showVersion => ⟨.success, CommandLine.versionText, "", tree⟩
  | .ok (.showHelp topic) => ⟨.success, topic.helpText, "", tree⟩
  | .ok .init => outcomeOf colored false (Config.init tree)
  | .ok (.extract arguments) =>
      outcomeOf colored arguments.verbose (Extraction.run tree arguments)

end Program
end Phrasebook
