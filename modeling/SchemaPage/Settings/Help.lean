import SchemaPage.Settings.CommandLine

/-!
# Help

The texts that explain the command line.

* `Help.ofWords`: the text that a request for help is answered with.
* `UsageError.report`: what is said about a mistake.
-/

namespace SchemaPage

namespace Help

/-- The text on the program as a whole. -/
def program : List String :=
  ["HTML documentation for Protocol Buffers schemas",
    "",
    "Usage: protodoc-gen <COMMAND>",
    "",
    "Commands:",
    "  generate  Render index.html for every owned schema file",
    "  list      Print the schema files and packages that would be loaded",
    "  help      Print this message or the help of the given subcommand(s)",
    "",
    "Options:",
    "  -h, --help     Print help",
    "  -V, --version  Print version"]

/-- The lines on the request for help itself. -/
def helpOption : List String :=
  ["  -h, --help",
    "          Print help (see a summary with '-h')"]

/-- The text on the command `generate`. -/
def generate : List String :=
  ["Render index.html for every owned schema file",
    "",
    "Usage: protodoc-gen generate [OPTIONS]",
    "",
    "Options:",
    "      --inc-path <DIR>",
    "          Directory searched for imports only (repeatable)",
    "",
    "      --proto-path <DIR[;PREFIX]>",
    "          Documented source root, optionally with a logical prefix: DIR[;PREFIX] (repeatable)",
    "",
    "      --output-path <DIR>",
    "          Directory that receives index.html; created if missing",
    "",
    "      --config <FILE>",
    "          TOML file with defaults for any of these options",
    "",
    "      --title <TITLE>",
    "          Document title",
    "",
    "      --field-order <FIELD_ORDER>",
    "          Row order of field tables",
    "",
    "          Possible values:",
    "          - source: As declared in the schema",
    "          - name:   Ascending field name",
    "          - tag:    Ascending tag number",
    "",
    "      --method-order <METHOD_ORDER>",
    "          Row order of service method tables",
    "          ",
    "          [possible values: source, name]",
    "",
    "      --file <PATH>",
    "          Only document these logical file paths (repeatable)",
    "",
    "      --strict-imports",
    "          Fail on imports that cannot be found instead of skipping them",
    ""] ++ helpOption

/-- The text on the command `list`. -/
def list : List String :=
  ["Print the schema files and packages that would be loaded",
    "",
    "Usage: protodoc-gen list [OPTIONS]",
    "",
    "Options:",
    "      --inc-path <DIR>",
    "          Directory searched for imports only (repeatable)",
    "",
    "      --proto-path <DIR[;PREFIX]>",
    "          Documented source root: DIR[;PREFIX] (repeatable)",
    "",
    "      --deps <DEPS>",
    "          Which files to list",
    "          ",
    "          [default: all]",
    "",
    "          Possible values:",
    "          - all:      Owned and imported files",
    "          - own:      Files under a --proto-path",
    "          - imported: Files reached only through imports",
    ""] ++ helpOption

/-- The text on the command with a name, or on the program. -/
def ofCommand : String → List String
  | "generate" => generate
  | "list" => list
  | _ => program

/-- The text that a request for help is answered with. -/
def ofWords : List String → List String
  | "help" :: name :: _ => ofCommand name
  | name :: _ => ofCommand name
  | [] => program

end Help

namespace UsageError

/-- The report of the mistake. -/
def message : UsageError → String
  | help | version | nothingAsked => ""
  | unknownCommand => "unrecognized subcommand"
  | unknownArgument => "unexpected argument found"
  | invalidValue => "a value is missing or not valid"
  | repeatedOption => "an option cannot be used multiple times"
  | tooManyValues => "unexpected value for an option that takes none"

/-- What is said about the mistake; a request is answered elsewhere. -/
def report : UsageError → List String
  | help | version => []
  | nothingAsked => Help.program
  | e => ["error: " ++ e.message, "", "For more information, try '--help'."]

/-- Something is said unless the error answers a request. -/
theorem report_eq_nil_iff (e : UsageError) : e.report = [] ↔ e.isAnswer = true := by
  cases e <;> simp [report, isAnswer, Help.program]

end UsageError

end SchemaPage
