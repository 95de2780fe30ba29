import CatalogQuery.CommandLine.Arguments
import CatalogQuery.Http.Service
/-!
# Usage

What is printed where arguments are no command, and the status with which the program ends then. A
question for help or the version is no mistake.
-/
namespace CatalogQuery.CommandLine

def programName : String := "querypilot"

def usage : String :=
  "Usage: " ++ programName ++ " <COMMAND>\n\nCommands:\n" ++
    "  serve          Open the engine and serve the HTTP API\n" ++
    "                   --config <CONFIG>    configuration [default: " ++ defaultConfig ++ "]\n" ++
    "  query          Run the first page of a single plan and exit\n" ++
    "                   --config <CONFIG>    configuration [default: " ++ defaultConfig ++ "]\n" ++
    "                   --plan <PLAN>        plan file [default: standard input]\n" ++
    "  compile        Validate and compile a plan, printing the statement\n" ++
    "                   --config <CONFIG>    configuration [default: " ++ defaultConfig ++ "]\n" ++
    "                   --plan <PLAN>        plan file [default: standard input]\n" ++
    "  check-catalog  Load and verify a catalog file\n" ++
    "                   --catalog <CATALOG>  catalog file\n" ++
    "  help           Print this message\n\nOptions:\n" ++
    "  -h, --help     Print help\n  -V, --version  Print version\n"

namespace UsageFault

def message : UsageFault → String
  | .help | .helpForNothing => usage
  | .version => programName ++ " " ++ Http.version ++ "\n"
  | .unknownCommand => "error: unrecognized subcommand\n\n" ++ usage
  | .unknownArgument => "error: unexpected argument found\n\n" ++ usage
  | .missingArgument => "error: a required argument was not provided\n\n" ++ usage
  | .missingValue => "error: a value is required but none was supplied\n\n" ++ usage
  | .repeatedArgument => "error: an argument cannot be used multiple times\n\n" ++ usage
  | .surplusValue => "error: unexpected value found\n\n" ++ usage

/-- The fault is a question and not a mistake. -/
def isQuestion : UsageFault → Bool
  | .help | .version => true
  | _ => false

def exitStatus (f : UsageFault) : Nat := if f.isQuestion then 0 else 2

end UsageFault

end CatalogQuery.CommandLine
