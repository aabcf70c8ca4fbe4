import Phrasebook.CommandLine.Similarity
import Phrasebook.Path

/-!
# Command line arguments

The arguments after the program's name either ask for a command, or for a text
(help or version), or cannot be understood.  An option is resolved when the next
argument that is no value of it comes, so an unknown argument is reported before
what is wrong with the option in front of it.
-/

namespace Phrasebook.CommandLine

/-- The commands whose help can be shown. -/
inductive Topic where
  | program
  | extract
  | init
  | help
  deriving DecidableEq, Repr

/-- The options of the commands. -/
inductive Flag where
  | sourceRoot
  | localesPath
  | verbose
  | out
  | baseLang
  | fnName
  | dryRun
  | strict
  | help
  | version
  deriving DecidableEq, Repr

/-- The long name of an option. -/
def Flag.name : Flag → String
  | .sourceRoot => "source-root"
  | .localesPath => "locales-path"
  | .verbose => "verbose"
  | .out => "out"
  | .baseLang => "base-lang"
  | .fnName => "fn-name"
  | .dryRun => "dry-run"
  | .strict => "strict"
  | .help => "help"
  | .version => "version"

/-- The name of an option's value, if it takes one. -/
def Flag.valueName? : Flag → Option String
  | .sourceRoot => some "SOURCE_ROOT"
  | .localesPath => some "LOCALES_PATH"
  | .out => some "OUT"
  | .baseLang => some "BASE_LANG"
  | .fnName => some "FN_NAMES"
  | _ => none

/-- Whether the value is a path, which must not be empty. -/
def Flag.takesPath : Flag → Bool
  | .sourceRoot => true
  | .localesPath => true
  | .out => true
  | _ => false

/-- An option as usage lines and messages show it. -/
def Flag.shown (flag : Flag) : String :=
  match flag.valueName? with
  | some value => "--" ++ flag.name ++ " <" ++ value ++ ">"
  | none => "--" ++ flag.name

/-- The options of a command, in order. -/
def Topic.flags : Topic → List Flag
  | .program => [.help, .version]
  | .extract =>
      [.sourceRoot, .localesPath, .verbose, .out, .baseLang, .fnName, .dryRun, .strict,
       .help]
  | .init => [.help]
  | .help => []

/-- The option with a short name. -/
def Topic.short? (topic : Topic) (c : Char) : Option Flag :=
  let flag : Option Flag :=
    if c = 'v' then some .verbose
    else if c = 'h' then some .help
    else if c = 'V' then some .version
    else none
  flag.filter topic.flags.contains

/-- The option with a long name. -/
def Topic.long? (topic : Topic) (name : String) : Option Flag :=
  topic.flags.find? fun flag => flag.name = name

/-- The commands of the program, by name. -/
def subcommands : List (String × Topic) :=
  [("extract", .extract), ("init", .init), ("help", .help)]

/-- The command with a name. -/
def subcommand? (name : String) : Option Topic :=
  (subcommands.find? fun entry => entry.1 = name).map Prod.snd

/-- A usage line: of a command as a whole, or with the options in use. -/
structure Usage where
  topic : Topic
  used : List Flag
  deriving DecidableEq, Repr

/-- What is proposed in place of an unknown argument. -/
inductive Tip where
  | argument (flag : Flag)
  | inCommand (command : String) (flag : Flag)
  | subcommands (names : List String)
  | dropDoubleDash (command : String)
  deriving DecidableEq, Repr

/-- Why arguments cannot be understood. -/
inductive ArgumentError where
  | unexpectedArgument (argument : String) (tip : Option Tip) (usage : Usage)
  | unrecognizedSubcommand (name : String) (tip : Option Tip) (usage : Usage)
  | missingValue (flag : Flag)
  | repeated (flag : Flag) (usage : Usage)
  | unexpectedValue (value : String) (flag : Flag) (usage : Usage)
  deriving DecidableEq, Repr

/-- The arguments of an extraction. -/
structure ExtractArguments where
  sourceRoot : Option Path := none
  localesPath : Option String := none
  verbose : Bool := false
  out : Option String := none
  baseLang : Option String := none
  fnNames : List String := []
  dryRun : Bool := false
  strict : Bool := false
  deriving DecidableEq, Repr

/-- What arguments ask for. -/
inductive Request where
  | extract (arguments : ExtractArguments)
  | init
  | showHelp (topic : Topic)
  | showVersion
  deriving DecidableEq, Repr

/-- The state while a command's arguments are taken: its options so far, in the
order in which they were first resolved, and an option that is not resolved yet,
with its value if there is one. -/
structure Progress where
  topic : Topic
  values : ExtractArguments := {}
  used : List Flag := []
  pending : Option (Flag × Option String) := none

/-- How taking arguments goes on: an answer ends it. -/
abbrev Step (α : Type) := Except (Except ArgumentError Request) α

/-- End with an error. -/
def refuse {α : Type} (error : ArgumentError) : Step α :=
  .error (.error error)

/-- The arguments with an option set. -/
def ExtractArguments.set (values : ExtractArguments) (flag : Flag) (value : String) :
    ExtractArguments :=
  match flag with
  | .sourceRoot => { values with sourceRoot := some ⟨value⟩ }
  | .localesPath => { values with localesPath := some value }
  | .verbose => { values with verbose := true }
  | .out => { values with out := some value }
  | .baseLang => { values with baseLang := some value }
  | .fnName => { values with fnNames := values.fnNames ++ [value] }
  | .dryRun => { values with dryRun := true }
  | .strict => { values with strict := true }
  | .help => values
  | .version => values

/-- Take an option with its value.  Only function names may come again. -/
def Progress.accept (progress : Progress) (flag : Flag) (value : String) :
    Step Progress :=
  if flag = .help then .error (.ok (.showHelp progress.topic))
  else if flag = .version then .error (.ok .showVersion)
  else if progress.used.contains flag ∧ flag ≠ .fnName then
    refuse (.repeated flag ⟨progress.topic, []⟩)
  else if flag.takesPath ∧ value = "" then refuse (.missingValue flag)
  else
    .ok { progress with
      values := progress.values.set flag value
      used :=
        if progress.used.contains flag then progress.used else progress.used ++ [flag] }

/-- Take the option that is not resolved yet. -/
def Progress.resolve (progress : Progress) : Step Progress :=
  match progress.pending with
  | none => .ok progress
  | some (flag, none) => refuse (.missingValue flag)
  | some (flag, some value) => { progress with pending := none }.accept flag value

/-- The options in use when an argument is refused; an option in front of it that
cannot be taken does not count. -/
def Progress.usedNow (progress : Progress) : List Flag :=
  match progress.resolve with
  | .ok resolved => resolved.used
  | .error _ => progress.used

/-- The option that a mistyped long name may have meant. -/
def similarFlag? (topic : Topic) (name : String) : Option Flag :=
  (similarWords name (topic.flags.map Flag.name)).getLast?.bind topic.long?

/-- The first of the arguments that is a command with a similar option. -/
def commandWithSimilar? (name : String) : List String → Option Tip
  | [] => none
  | argument :: rest =>
      match (subcommand? argument).bind fun topic => similarFlag? topic name with
      | some flag => some (.inCommand argument flag)
      | none => commandWithSimilar? name rest

/-- The error for an unknown long option before `rest`. -/
def Progress.unknownLong (progress : Progress) (name : String) (rest : List String) :
    ArgumentError :=
  let used := progress.usedNow
  match similarFlag? progress.topic name with
  | some flag =>
      let used := if used.contains flag then used else used ++ [flag]
      .unexpectedArgument ("--" ++ name) (some (.argument flag)) ⟨progress.topic, used⟩
  | none =>
      let tip := if progress.topic = .program then commandWithSimilar? name rest else none
      .unexpectedArgument ("--" ++ name) tip ⟨progress.topic, used⟩

/-- A long option cut at its equals sign. -/
def splitLong (text : List Char) : String × Option String :=
  let name := text.takeWhile (· ≠ '=')
  let value := match text.drop name.length with
    | [] => none
    | _ :: value => some (String.ofList value)
  (String.ofList name, value)

/-- Take a long option before `rest`. -/
def Progress.long (progress : Progress) (text : List Char) (rest : List String) :
    Step Progress :=
  let (name, value) := splitLong text
  match progress.topic.long? name with
  | none => refuse (progress.unknownLong name rest)
  | some flag =>
      match flag.valueName?, value with
      | some _, some value => do
          let progress ← progress.resolve
          progress.accept flag value
      | some _, none => do
          let progress ← progress.resolve
          .ok { progress with pending := some (flag, none) }
      | none, some value =>
          let used := progress.used.filter (· ≠ flag)
          refuse (.unexpectedValue value flag ⟨progress.topic, used ++ [flag]⟩)
      | none, none => do
          let progress ← progress.resolve
          progress.accept flag ""

/-- Take the short options of one argument. -/
def Progress.shorts (progress : Progress) : List Char → Step Progress
  | [] => .ok progress
  | c :: rest =>
      match progress.topic.short? c with
      | some flag => do
          let progress ← progress.resolve
          let progress ← progress.accept flag ""
          progress.shorts rest
      | none =>
          refuse (.unexpectedArgument (String.ofList ['-', c]) none ⟨progress.topic, []⟩)

/-- The error for an argument that is neither an option nor a value. -/
def Progress.stray (progress : Progress) (trailing : Bool) (argument : String) :
    ArgumentError :=
  let usage : Usage := ⟨progress.topic, []⟩
  if progress.topic ≠ .program then .unexpectedArgument argument none usage
  else if trailing ∧ (subcommand? argument).isSome then
    .unexpectedArgument argument (some (.dropDoubleDash argument)) usage
  else
    match similarWords argument (subcommands.map Prod.fst) with
    | [] => .unrecognizedSubcommand argument none usage
    | names => .unrecognizedSubcommand argument (some (.subcommands names)) usage

/-- Take one argument before `rest`. -/
def Progress.take (progress : Progress) (argument : String) (rest : List String) :
    Step Progress :=
  match argument.toList with
  | '-' :: '-' :: text => progress.long text rest
  | '-' :: c :: text => progress.shorts (c :: text)
  | _ =>
      match progress.pending with
      | some (flag, none) => .ok { progress with pending := some (flag, some argument) }
      | _ => refuse (progress.stray false argument)

/-- Take all arguments of a command; after `--` none may follow. -/
def Progress.takeAll (progress : Progress) : List String → Step Progress
  | [] => progress.resolve
  | "--" :: [] => progress.resolve
  | "--" :: argument :: _ => refuse (progress.stray true argument)
  | argument :: rest => do
      let progress ← progress.take argument rest
      progress.takeAll rest

/-- The answer that taking arguments ends with. -/
def Step.finish {α : Type} (step : Step α) (done : α → Request) :
    Except ArgumentError Request :=
  match step with
  | .ok value => .ok (done value)
  | .error answer => answer

/-- The help that the `help` command is asked for, from a topic on. -/
def helpTopic : Topic → List String → Except ArgumentError Request
  | topic, [] => .ok (.showHelp topic)
  | .program, name :: rest =>
      match subcommand? name with
      | some topic => helpTopic topic rest
      | none => .error (.unrecognizedSubcommand name none ⟨.program, []⟩)
  | topic, name :: _ => .error (.unrecognizedSubcommand name none ⟨topic, []⟩)

/-- What the arguments of the program ask for; without any, its help. -/
def parse (arguments : List String) : Except ArgumentError Request :=
  go { topic := .program } arguments
where
  go (progress : Progress) : List String → Except ArgumentError Request
    | [] => .ok (.showHelp .program)
    | "--" :: [] => .ok (.showHelp .program)
    | "--" :: argument :: _ => .error (progress.stray true argument)
    | argument :: rest =>
        match subcommand? argument with
        | some .extract =>
            (Progress.takeAll { topic := .extract } rest).finish fun progress =>
              .extract progress.values
        | some .init => (Progress.takeAll { topic := .init } rest).finish fun _ => .init
        | some _ => helpTopic .program rest
        | none =>
            match progress.take argument rest with
            | .ok progress => go progress rest
            | .error answer => answer

end Phrasebook.CommandLine
