import LintRelay.CommandLine.Arguments
import LintRelay.CommandLine.Outcome
import LintRelay.CommandLine.Program
set_option autoImplicit false

/-!
# Help

What the program says when it is asked for help, and when it is called in a way
that it does not understand.
-/

namespace LintRelay.CommandLine

/-- How the program is called. -/
def usageText : String := "Usage: lintbridge [OPTIONS] <COMMAND>\n"

/-- The commands and the options of the program. -/
def helpText : String :=
  "\n".intercalate
    ["Static analysis through an external linter bridge", "", usageText,
     "Commands:",
     "  analyze  Analyze a directory through the bridge [aliases: lint]",
     "  init     Create a settings file from a template",
     "  help     Print this message or the help of the given subcommand(s)", "",
     "Options:",
     "  -v, --verbose  Show debug output",
     "  -q, --quiet    Only show warnings and errors",
     "  -h, --help     Print help",
     "  -V, --version  Print version", "",
     "Options of analyze:",
     "  <PATH>                   Directory or file to analyze",
     "  -s, --settings <FILE>    Path to settings YAML file (default: auto-discover)",
     "  -f, --format <FORMAT>    Output format: pretty or json [default: pretty]",
     "  -l, --language <NAME>    Override the language from the settings file",
     "      --engine-url <URL>   Connect to a running bridge instead of spawning one",
     "      --monitoring         Record performance metrics",
     "      --monitoring-path <DIRECTORY>",
     "                           Directory receiving metrics.json (implies --monitoring)", "",
     "Options of init:",
     "  -o, --output <FILE>      Output file path [default: lintbridge.yaml]",
     "  -l, --language <NAME>    Language of the project: javascript or typescript",
     "                           [default: typescript]", ""]

/-- What is wrong with the words of a command line. -/
def UsageError.message : UsageError → String
  | .help => "help was asked for"
  | .version => "the version was asked for"
  | .nothingGiven => "nothing was given"
  | .missingCommand => "a command is required but one was not provided"
  | .unknownCommand => "unrecognized command"
  | .unknownArgument => "unexpected argument found"
  | .conflict => "an argument cannot be used multiple times or with another one"
  | .missingValue => "a value is required for an argument but none was supplied"
  | .unexpectedValue => "unexpected value for an argument"
  | .unreadableValue complaint => "invalid value for an argument: " ++ complaint
  | .missingArgument => "a required argument was not provided"

/-- What the program says instead of carrying out a command. -/
def UsageError.emission : UsageError → Emission
  | .help => .out helpText
  | .version => .out versionText
  | .nothingGiven => .err helpText
  | e =>
    .err
      ("error: " ++ e.message ++ "\n\n" ++ usageText ++
        "\nFor more information, try '--help'.\n")

/-- The code that the program ends with then. -/
def UsageError.code : UsageError → Nat
  | .help => exitSuccess
  | .version => exitSuccess
  | _ => exitError

end LintRelay.CommandLine
