import Phrasebook.CommandLine.Arguments

/-!
# Texts of the command line

Help texts, usage lines and the messages for arguments that cannot be understood.
-/

namespace Phrasebook.CommandLine

/-- The name and version of the program. -/
def versionText : String := "glean 0.1.0\n"

/-- A command as usage lines name it. -/
def Topic.command : Topic → String
  | .program => "glean"
  | .extract => "glean extract"
  | .init => "glean init"
  | .help => "glean help"

/-- The usage of a command as a whole. -/
def Topic.usage : Topic → String
  | .program => "glean [COMMAND]"
  | .extract => "glean extract [OPTIONS]"
  | .init => "glean init"
  | .help => "glean help [COMMAND]..."

/-- A usage line. -/
def Usage.text (usage : Usage) : String :=
  "Usage: " ++
    match usage.used with
    | [] => usage.topic.usage
    | flags => String.intercalate " " (usage.topic.command :: flags.map Flag.shown)

/-- The lines of a help text. -/
def Topic.helpLines : Topic → List String
  | .program =>
      ["Extract translation keys from JS/TS sources and merge them into per-locale JSON files",
       "",
       "Usage: glean [COMMAND]",
       "",
       "Commands:",
       "  extract  Extract translation keys and merge them into per-locale JSON files",
       "  init     Initialize a new .gleanrc.json configuration file",
       "  help     Print this message or the help of the given subcommand(s)",
       "",
       "Options:",
       "  -h, --help     Print help",
       "  -V, --version  Print version"]
  | .extract =>
      ["Extract translation keys and merge them into per-locale JSON files",
       "",
       "Usage: glean extract [OPTIONS]",
       "",
       "Options:",
       "      --source-root <SOURCE_ROOT>    Source code root directory (overrides config file)",
       "      --locales-path <LOCALES_PATH>  Directory of the existing locale JSON files " ++
         "(overrides config file)",
       "  -v, --verbose                      Enable verbose output (also turns off " ++
         "\x60silent\x60)",
       "      --out <OUT>                    Output directory for merged locale files " ++
         "(default: <locales-path>/parsed)",
       "      --base-lang <BASE_LANG>        Base language used as fallback (overrides " ++
         "config file)",
       "      --fn-name <FN_NAMES>           Translation function name, can be specified " ++
         "multiple times: --fn-name t --fn-name translate",
       "      --dry-run                      Merge and report without writing any file",
       "      --strict                       Exit with status 1 when translation calls with " ++
         "non-literal keys are found",
       "  -h, --help                         Print help"]
  | .init =>
      ["Initialize a new .gleanrc.json configuration file",
       "",
       "Usage: glean init",
       "",
       "Options:",
       "  -h, --help  Print help"]
  | .help =>
      ["Print this message or the help of the given subcommand(s)",
       "",
       "Usage: glean help [COMMAND]...",
       "",
       "Arguments:",
       "  [COMMAND]...  Print help for the subcommand(s)"]

/-- A help text. -/
def Topic.helpText (topic : Topic) : String :=
  String.join (topic.helpLines.map fun line => line ++ "\n")

/-- A text between single quotes. -/
def inQuotes (text : String) : String :=
  "'" ++ text ++ "'"

/-- The words of a tip. -/
def Tip.text : Tip → String
  | .argument flag => "a similar argument exists: " ++ inQuotes ("--" ++ flag.name)
  | .inCommand command flag => inQuotes (command ++ " --" ++ flag.name) ++ " exists"
  | .subcommands [name] => "a similar subcommand exists: " ++ inQuotes name
  | .subcommands names =>
      "some similar subcommands exist: " ++ String.intercalate ", " (names.map inQuotes)
  | .dropDoubleDash command =>
      "subcommand " ++ inQuotes command ++ " exists; to use it, remove the '--' before it"

/-- What is wrong, without tip and usage. -/
def ArgumentError.headline : ArgumentError → String
  | .unexpectedArgument argument _ _ =>
      "unexpected argument " ++ inQuotes argument ++ " found"
  | .unrecognizedSubcommand name _ _ => "unrecognized subcommand " ++ inQuotes name
  | .missingValue flag =>
      "a value is required for " ++ inQuotes flag.shown ++ " but none was supplied"
  | .repeated flag _ =>
      "the argument " ++ inQuotes flag.shown ++ " cannot be used multiple times"
  | .unexpectedValue value flag _ =>
      "unexpected value " ++ inQuotes value ++ " for " ++ inQuotes flag.shown ++
        " found; no more were expected"

/-- The tip of an error. -/
def ArgumentError.tip? : ArgumentError → Option Tip
  | .unexpectedArgument _ tip _ => tip
  | .unrecognizedSubcommand _ tip _ => tip
  | _ => none

/-- The usage shown with an error. -/
def ArgumentError.usage? : ArgumentError → Option Usage
  | .unexpectedArgument _ _ usage => some usage
  | .unrecognizedSubcommand _ _ usage => some usage
  | .missingValue _ => none
  | .repeated _ usage => some usage
  | .unexpectedValue _ _ usage => some usage

/-- The message for an error: what is wrong, a tip, the usage and where to find
help. -/
def ArgumentError.text (error : ArgumentError) : String :=
  let tip := match error.tip? with
    | some tip => "\n\n  tip: " ++ tip.text
    | none => ""
  let usage := match error.usage? with
    | some usage => "\n\n" ++ usage.text
    | none => ""
  let more :=
    if error.usage?.any fun usage => usage.topic = .help then ""
    else "\n\nFor more information, try '--help'."
  "error: " ++ error.headline ++ tip ++ usage ++ more ++ "\n"

end Phrasebook.CommandLine
