import SchemaPage.Catalog
import SchemaPage.Settings
import SchemaPage.Text.Split

/-!
# The command line

A command is the word `generate` or `list` with options after it.  An option takes a value, in the
same word after an equals sign or as the next word, unless it is a flag.

A value that comes as a word of its own is checked only when the next option begins or the words
end; a word that cannot be placed is reported before that.  So of two mistakes the misplaced word
is reported, wherever it stands.

* `Occurrence`: an option with its value, as it was given.
* `occurrences`: the options in a list of words.
* `Command.parse`: the command that the words give.
-/

namespace SchemaPage

/-- Why the words give no command. -/
inductive UsageError where
  /-- Help was asked for. -/
  | help
  /-- The version was asked for. -/
  | version
  /-- There is no command among the words. -/
  | nothingAsked
  | unknownCommand
  | unknownArgument
  /-- A value is missing or is not one that the option takes. -/
  | invalidValue
  /-- An option that may be given once is given again. -/
  | repeatedOption
  /-- A flag is given a value. -/
  | tooManyValues
  deriving DecidableEq, Repr

namespace UsageError

/-- Whether the error answers a request. -/
def isAnswer : UsageError → Bool
  | help | version => true
  | _ => false

/-- The exit status of a run that ends with the error. -/
def exitStatus (e : UsageError) : Nat := if e.isAnswer then 0 else 2

end UsageError

/-- What an option takes. -/
inductive Argument where
  | nothing
  | text
  /-- A text that is not empty. -/
  | path
  /-- One of some words. -/
  | choice (words : List String)
  deriving DecidableEq, Repr

/-- Whether the value is one that the option takes. -/
def Argument.accepts : Argument → String → Bool
  | nothing, _ => true
  | text, _ => true
  | path, value => value != ""
  | choice words, value => words.contains value

/-- An option of a command. -/
structure OptionSpec where
  name : String
  argument : Argument
  /-- Whether the option may be given more than once. -/
  repeats : Bool
  deriving DecidableEq, Repr

/-- An option as it was given. -/
structure Occurrence where
  name : String
  value : String
  deriving DecidableEq, Repr

/-! ## Words -/

/-- What a word is by its look. -/
inductive Word where
  /-- Two hyphens, after which there are no options. -/
  | separator
  /-- A long option, with the value after its equals sign. -/
  | long (name : String) (value : Option String)
  /-- Short options, of which the first counts. -/
  | short (letter : Char)
  | plain (text : String)
  deriving DecidableEq, Repr

/-- The look of a word. -/
def Word.ofString (s : String) : Word :=
  match s.toList with
  | ['-', '-'] => separator
  | '-' :: '-' :: cs =>
    let name := String.ofList (cs.takeWhile (· != '='))
    match cs.dropWhile (· != '=') with
    | [] => long name none
    | _ :: value => long name (some (String.ofList value))
  | '-' :: c :: _ => short c
  | _ => plain s

/-! ## Options -/

/-- Add an occurrence, if the option may be given and takes the value. -/
def give (given : List Occurrence) (spec : OptionSpec) (value : String) :
    Except UsageError (List Occurrence) :=
  if !spec.repeats && given.any (·.name == spec.name) then .error .repeatedOption
  else if spec.argument.accepts value then .ok (given ++ [⟨spec.name, value⟩])
  else .error .invalidValue

/-- An option whose value comes as a word of its own, with that word once it is there. -/
structure Pending where
  spec : OptionSpec
  value : Option String
  deriving DecidableEq, Repr

/-- Add the occurrence that is still pending. -/
def settle (given : List Occurrence) : Option Pending → Except UsageError (List Occurrence)
  | none => .ok given
  | some ⟨_, none⟩ => .error .invalidValue
  | some ⟨spec, some value⟩ => give given spec value

/-- The occurrences of options in a list of words, after those already given. -/
def occurrences (specs : List OptionSpec) :
    List Occurrence → Option Pending → List String → Except UsageError (List Occurrence)
  | given, pending, [] => settle given pending
  | given, pending, word :: words =>
    match Word.ofString word with
    | .separator => if words.isEmpty then settle given pending else .error .unknownArgument
    | .long name value =>
      match specs.find? (·.name == name), value with
      | some spec, some value =>
        if spec.argument = .nothing then .error .tooManyValues
        else do
          let given ← give (← settle given pending) spec value
          occurrences specs given none words
      | some spec, none => do
        let given ← settle given pending
        if spec.argument = .nothing then
          let given ← give given spec ""
          occurrences specs given none words
        else occurrences specs given (some ⟨spec, none⟩) words
      | none, some _ => if name = "help" then .error .tooManyValues else .error .unknownArgument
      | none, none =>
        if name = "help" then do
          let _ ← settle given pending
          .error .help
        else .error .unknownArgument
    | .short letter =>
      if letter = 'h' then do
        let _ ← settle given pending
        .error .help
      else .error .unknownArgument
    | .plain text =>
      match pending with
      | some ⟨spec, none⟩ => occurrences specs given (some ⟨spec, some text⟩) words
      | _ => .error .unknownArgument

/-- The values given to an option, in order. -/
def valuesOf (given : List Occurrence) (name : String) : List String :=
  (given.filter (·.name == name)).map (·.value)

/-! ## Commands -/

/-- A command with its options. -/
inductive Command where
  /-- Write the page, with the settings in a file if there is one. -/
  | generate (config : Option String) (overrides : Overrides)
  /-- Report the files and packages that would be loaded. -/
  | list (incPaths protoPaths : List String) (deps : DepFilter)
  deriving DecidableEq, Repr

/-- The word for a filter. -/
def DepFilter.word : DepFilter → String
  | all => "all"
  | ownedOnly => "own"
  | importedOnly => "imported"

/-- The filter that a word stands for. -/
def DepFilter.ofWord? (word : String) : Option DepFilter :=
  [all, ownedOnly, importedOnly].find? (·.word == word)

namespace Command

/-- The words for the commands. -/
def names : List String := ["generate", "list"]

/-- The options that name the directories to load from. -/
def sourceOptions : List OptionSpec := [⟨"inc-path", .path, true⟩, ⟨"proto-path", .text, true⟩]

/-- The options of `generate`. -/
def generateOptions : List OptionSpec :=
  sourceOptions ++
  [⟨"output-path", .path, false⟩,
    ⟨"config", .path, false⟩,
    ⟨"title", .text, false⟩,
    ⟨"field-order", .choice ["source", "name", "tag"], false⟩,
    ⟨"method-order", .choice ["source", "name"], false⟩,
    ⟨"file", .text, true⟩,
    ⟨"strict-imports", .nothing, false⟩]

/-- The options of `list`. -/
def listOptions : List OptionSpec :=
  sourceOptions ++ [⟨"deps", .choice ["all", "own", "imported"], false⟩]

/-- The command `generate` with some options. -/
def ofGenerate (given : List Occurrence) : Command :=
  let values := valuesOf given
  let value? (name : String) : Option String := (values name).head?
  .generate (value? "config")
    { incPaths := values "inc-path"
      protoPaths := values "proto-path"
      outputPath := value? "output-path"
      title := value? "title"
      strictImports := !(values "strict-imports").isEmpty
      fieldOrder := (value? "field-order").bind FieldOrder.ofWord?
      methodOrder := (value? "method-order").bind MethodOrder.ofWord?
      files := values "file" }

/-- The command `list` with some options. -/
def ofList (given : List Occurrence) : Command :=
  let values := valuesOf given
  .list (values "inc-path") (values "proto-path")
    (((values "deps").head?.bind DepFilter.ofWord?).getD .all)

/-- The answer to a request for help on some words. -/
def help : List String → UsageError
  | [] => .help
  | [name] => if names.contains name || name = "help" then .help else .unknownCommand
  | _ => .unknownCommand

/-- The answer to a first word that is no command. -/
def noCommand (word : String) (rest : List String) : UsageError :=
  match Word.ofString word with
  | .separator =>
    match rest with
    | [] => .nothingAsked
    | next :: _ =>
      if names.contains next || next = "help" then .unknownArgument else .unknownCommand
  | .long "help" none => .help
  | .long "version" none => .version
  | .long "help" (some _) | .long "version" (some _) => .tooManyValues
  | .long _ _ => .unknownArgument
  | .short 'h' => .help
  | .short 'V' => .version
  | .short _ => .unknownArgument
  | .plain _ => .unknownCommand

/-- The command that the words give. -/
def parse : List String → Except UsageError Command
  | [] => .error .nothingAsked
  | "generate" :: words => (occurrences generateOptions [] none words).map ofGenerate
  | "list" :: words => (occurrences listOptions [] none words).map ofList
  | "help" :: words => .error (help words)
  | word :: words => .error (noCommand word words)

end Command

end SchemaPage
