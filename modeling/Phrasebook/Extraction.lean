import Phrasebook.CommandLine.Arguments
import Phrasebook.Report
import Phrasebook.Scan
import Phrasebook.Source.Calls

/-!
# Extractions

An extraction reads the configuration of a project, collects the calls of all its
source files in the order of their names, and merges the keys into the locales.
Sources that cannot be read or parsed are reported and do not stop it.  All else that
fails does.
-/

namespace Phrasebook

open CommandLine

/-- Why a command fails. -/
inductive CommandError where
  | configFile (error : Config.LoadError)
  | config (error : ConfigError)
  | session (error : SessionError)
  | configExists
  | file (error : FileError)
  deriving DecidableEq, Repr

/-- The words for a failure. -/
def CommandError.message : CommandError → String
  | .configFile error => error.message
  | .config error => error.message
  | .session error => error.message
  | .configExists => Config.fileName ++ " already exists"
  | .file error => error.message

/-- What a command tells while it runs. -/
inductive Message where
  | scan (warning : Scan.Warning)
  | session (notice : Notice)
  deriving DecidableEq, Repr

/-- The line a message is shown as. -/
def Message.line (colored : Bool) : Message → String
  | .scan warning => warning.line colored
  | .session notice => notice.line colored

/-- What a command leaves behind: the files, what it told, and its result. -/
structure Completion where
  tree : FileTree
  messages : List Message
  result : Except CommandError CommandResult

namespace Extraction

/-- The settings with those of the arguments in their place. -/
def override (config : Config) (arguments : ExtractArguments) : Config :=
  { config with
    localesPath := arguments.localesPath.getD config.localesPath
    localesOutPath := arguments.out <|> config.localesOutPath
    baseLang := arguments.baseLang.getD config.baseLang
    fnNames := if arguments.fnNames.isEmpty then config.fnNames else arguments.fnNames
    silent := config.silent && !arguments.verbose }

/-- The directory of the sources. -/
def root (arguments : ExtractArguments) : Path :=
  arguments.sourceRoot.getD ⟨"."⟩

/-- The settings of a run: those of the configuration file, or the default ones, with
those of the arguments in their place. -/
def configOf (tree : FileTree) (arguments : ExtractArguments) :
    Except CommandError Config := do
  let loaded ← (Config.load tree (root arguments)).mapError .configFile
  let config := override loaded.config arguments
  config.validate.mapError .config
  return config

/-- The options of a session for some settings. -/
def optionsOf (config : Config) (root : Path) (dryRun : Bool) : Options where
  localesDir := config.localesDir root
  outDir := config.outDir root
  fnNames := config.fnNames
  base := config.baseLang
  unknownKeys := config.unknownKeys
  silent := config.silent
  dryRun := dryRun

/-- What to scan with some settings. -/
def scanOf (config : Config) (root : Path) : Scan.Request where
  root := root
  includes := config.includes
  ignores := config.ignores
  ignoreTestFiles := config.ignoreTestFiles

/-- The calls in a source file. -/
def callsIn (tree : FileTree) (names : List String) (file : String) :
    Except ParseFailure (List CallSite) :=
  match tree.readText ⟨file⟩ with
  | .error error => .error ⟨file, "Failed to read " ++ file ++ ": " ++ error.message⟩
  | .ok code =>
      match Source.File.parse file code with
      | none => .error ⟨file, "Failed to parse " ++ file⟩
      | some source => .ok (source.calls names)

/-- The sources that could not be read or parsed. -/
def failuresOf {α : Type} (read : List (Except ParseFailure α)) : List ParseFailure :=
  read.filterMap fun
    | .ok _ => none
    | .error failure => some failure

/-- The result of an extraction, from the session that was left. -/
def resultOf (arguments : ExtractArguments) (config : Config) (sourceFiles : Nat)
    (session : Session) (failures : List ParseFailure) (flush : Flush) : CommandResult :=
  let unknownCalls := session.unknownCalls.filter fun call => !call.expanded
  let summary : ExtractSummary :=
    { sourceFiles
      locales := (session.catalog.map Catalog.names).getD []
      base := config.baseLang
      keyCount := session.keys.length
      unknownCalls
      untranslatedCounts := session.untranslatedCounts
      parseFailures := failures
      outDir := session.options.outDir
      flush
      strict := arguments.strict
      silent := config.silent }
  if arguments.strict then ⟨.extract summary, unknownCalls.length, failures.length⟩
  else ⟨.extract summary, 0, unknownCalls.length + failures.length⟩

/-- Run an extraction. -/
def run (tree : FileTree) (arguments : ExtractArguments) : Completion :=
  match configOf tree arguments with
  | .error error => ⟨tree, [], .error error⟩
  | .ok config =>
      let root := root arguments
      let scan := Scan.run tree (scanOf config root)
      let warned := if arguments.verbose then scan.warnings.map Message.scan else []
      let read := scan.files.map (callsIn tree config.fnNames)
      let calls := read.flatMap fun found => found.toOption.getD []
      let registered :=
        ((Session.start (optionsOf config root arguments.dryRun)).enter tree).andThen
          fun session => session.registerAll tree calls
      let told := warned ++ registered.notices.map .session
      match registered.result with
      | .error error => ⟨tree, told, .error (.session error)⟩
      | .ok () =>
          let left := registered.session.exit tree
          { tree := left.tree
            messages := told ++ left.notices.map .session
            result :=
              match left.result with
              | .error error => .error (.session error)
              | .ok flush =>
                  .ok (resultOf arguments config scan.files.length left.session
                    (failuresOf read) flush) }

end Extraction

/-- Create a configuration file with the default settings. -/
def Config.init (tree : FileTree) : Completion :=
  let file : Path := ⟨Config.fileName⟩
  if tree.pathExists file then ⟨tree, [], .error .configExists⟩
  else
    match tree.write file (.text Config.defaultText) with
    | .error error => ⟨tree, [], .error (.file error)⟩
    | .ok tree => ⟨tree, [], .ok ⟨.init file, 0, 0⟩⟩

end Phrasebook
