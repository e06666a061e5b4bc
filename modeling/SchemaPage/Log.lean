import SchemaPage.Schema.Declaration
import SchemaPage.Text.Lowercase

/-!
# The log

What a run reports besides its result.  An event has a level and belongs to a part of the program.

* `LogLevel`, `LogEvent`: what is reported.
* `LogConfig`: how it is reported, as the environment asks for.
-/

namespace SchemaPage

/-! ## Levels -/

/-- How much an event matters. -/
inductive LogLevel where
  | error
  | warn
  | info
  | debug
  | trace
  deriving DecidableEq, Repr

namespace LogLevel

/-- The levels from the one that matters most. -/
def all : List LogLevel := [error, warn, info, debug, trace]

/-- The position of the level in the list. -/
def rank : LogLevel → Nat
  | error => 1
  | warn => 2
  | info => 3
  | debug => 4
  | trace => 5

/-- The word for the level. -/
def label : LogLevel → String
  | error => "ERROR"
  | warn => "WARN"
  | info => "INFO"
  | debug => "DEBUG"
  | trace => "TRACE"

/-- The level that a word stands for, in any case. -/
def ofWord? (word : String) : Option LogLevel :=
  all.find? fun l => Text.lowercase l.label == Text.lowercase word

end LogLevel

/-! ## Events -/

/-- Something that is reported. -/
inductive LogEvent where
  /-- An owned file was found. -/
  | ownedFile (name path : String)
  /-- An import was found nowhere. -/
  | missingImport (name : String)
  /-- The graph is complete. -/
  | loaded (owned imported : Nat)
  /-- A section of the page begins. -/
  | documenting (kind : Kind) (count : Nat)
  /-- The block of a declaration begins. -/
  | rendering (declaration file : String)
  /-- A type name stands for nothing. -/
  | unresolved (typeName context : String)
  /-- The page is complete. -/
  | written (path : String)
  /-- The run has failed. -/
  | failed (message : String)
  deriving DecidableEq, Repr

/-- A value in an event. -/
inductive LogValue where
  | text (text : String)
  | number (n : Nat)
  deriving DecidableEq, Repr

namespace LogEvent

/-- How much the event matters. -/
def level : LogEvent → LogLevel
  | ownedFile .. | rendering .. | unresolved .. => .debug
  | missingImport .. => .warn
  | loaded .. | documenting .. | written .. => .info
  | failed .. => .error

/-- The part of the program that reports the event. -/
def target : LogEvent → String
  | ownedFile .. | missingImport .. | loaded .. => "protodoc::graph::load"
  | documenting .. | rendering .. => "protodoc::generator::render"
  | unresolved .. => "protodoc::generator::xref"
  | written .. => "protodoc::cli::commands"
  | failed .. => "protodoc_gen"

/-- The sentence for the event. -/
def message : LogEvent → String
  | ownedFile .. => "found owned proto file"
  | missingImport .. => "import not found, references into it stay unlinked"
  | loaded .. => "loaded dependency graph"
  | documenting .. => "documenting declarations"
  | rendering .. => "rendering declaration"
  | unresolved .. => "unresolved type reference"
  | written .. => "documentation written"
  | failed message => message

/-- The values that go with the sentence. -/
def values : LogEvent → List (String × LogValue)
  | ownedFile name path => [("file", .text name), ("path", .text path)]
  | missingImport name => [("import", .text name)]
  | loaded owned imported => [("owned", .number owned), ("imported", .number imported)]
  | documenting kind count => [("kind", .text kind.label), ("count", .number count)]
  | rendering declaration file => [("declaration", .text declaration), ("file", .text file)]
  | unresolved typeName context => [("type_name", .text typeName), ("context", .text context)]
  | written path => [("path", .text path)]
  | failed _ => []

end LogEvent

/-- A result with the events on the way to it. -/
structure Logged (α : Type) where
  events : List LogEvent
  value : α

/-! ## Configuration -/

/-- How events are written. -/
inductive LogFormat where
  | json
  | pretty
  deriving DecidableEq, Repr

namespace LogFormat

/-- The word for the format. -/
def word : LogFormat → String
  | json => "json"
  | pretty => "pretty"

/-- The format that a word stands for, in any case; every other word stands for the default. -/
def ofWord (word : String) : LogFormat := if Text.lowercase word = "json" then json else pretty

end LogFormat

/-- How events are reported. -/
structure LogConfig where
  /-- The level as it is written. -/
  levelWord : String := "info"
  format : LogFormat := .pretty
  /-- Whether the place in the program is reported. -/
  includesLocation : Bool := false
  deriving DecidableEq, Repr

namespace LogConfig

/-- The level; a word that stands for none means the default. -/
def level (c : LogConfig) : LogLevel := (LogLevel.ofWord? c.levelWord).getD .info

/-- The configuration by the values of variables, those that are set. -/
def ofVariables (level format location : Option String) : LogConfig :=
  { levelWord := level.getD "info"
    format := .ofWord (format.getD "pretty")
    includesLocation := location == some "true" }

end LogConfig

end SchemaPage
