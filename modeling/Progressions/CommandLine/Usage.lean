import Progressions.Text.Quoted

/-!
# Usage

The options of the command line, the texts that explain them, and what can be
wrong with the arguments.
-/

set_option autoImplicit false

namespace Progressions.CommandLine

def programName : String := "numseq"

def versionText : String := programName ++ " 0.1.0\n"

def usageText : String :=
  "usage: numseq [-h] [--describe] [--limit LIMIT] [--separator SEPARATOR] [-v]\n" ++
  "              [--version]\n" ++
  "              spec\n"

def helpText : String :=
  usageText ++
  "\n" ++
  "Expand a number sequence specification such as '1,3,5,...,13'.\n" ++
  "\n" ++
  "positional arguments:\n" ++
  "  spec                  number sequence, e.g. '1,3,5,...' or '10,8,6,...,0'\n" ++
  "\n" ++
  "options:\n" ++
  "  -h, --help            show this help message and exit\n" ++
  "  --describe            print the parsed description as JSON instead of the\n" ++
  "                        values\n" ++
  "  --limit LIMIT         maximum number of values to print (default: 100, 0 for\n" ++
  "                        no limit)\n" ++
  "  --separator SEPARATOR\n" ++
  "                        string printed between values (default: newline)\n" ++
  "  -v, --verbose         enable debug logging\n" ++
  "  --version             show program's version number and exit\n"

inductive Switch where
  | help
  | describe
  | limit
  | separator
  | verbose
  | version
deriving DecidableEq

namespace Switch

def all : List Switch := [.help, .describe, .limit, .separator, .verbose, .version]

def spellings : Switch → List String
  | .help => ["-h", "--help"]
  | .describe => ["--describe"]
  | .limit => ["--limit"]
  | .separator => ["--separator"]
  | .verbose => ["-v", "--verbose"]
  | .version => ["--version"]

def title (switch : Switch) : String := "/".intercalate switch.spellings

def takesValue : Switch → Bool
  | .limit | .separator => true
  | _ => false

def table : List (List Char × Switch) :=
  all.flatMap fun switch => switch.spellings.map fun spelling => (spelling.toList, switch)

def ofSpelling? (spelling : List Char) : Option Switch := table.lookup spelling

end Switch

inductive UsageError where
  | specificationMissing
  | unrecognized (arguments : List String)
  | limitInvalid (text : String)
  | valueMissing (switch : Switch)
  | valueIgnored (switch : Switch) (value : String)
  /-- An abbreviation fits several spellings. -/
  | ambiguous (argument : String) (spellings : List String)
deriving DecidableEq

namespace UsageError

def message : UsageError → String
  | .specificationMissing => "the following arguments are required: spec"
  | .unrecognized arguments => "unrecognized arguments: " ++ " ".intercalate arguments
  | .limitInvalid text =>
    "argument " ++ Switch.limit.title ++ ": invalid int value: " ++ Text.quoted text
  | .valueMissing switch => "argument " ++ switch.title ++ ": expected one argument"
  | .valueIgnored switch value =>
    "argument " ++ switch.title ++ ": ignored explicit argument " ++ Text.quoted value
  | .ambiguous argument spellings =>
    "ambiguous option: " ++ argument ++ " could match " ++ ", ".intercalate spellings

def report (error : UsageError) : String :=
  usageText ++ programName ++ ": error: " ++ error.message ++ "\n"

end UsageError

end Progressions.CommandLine
