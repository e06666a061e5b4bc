import SchemaPage.Log.Filter
import SchemaPage.Log.Line
import SchemaPage.Run
import SchemaPage.Settings.Help

/-!
# The program

What the words on the command line and the variables of the environment make the program do to
a file system.

* `Environment`: the variables that count.
* `Program.run`: the files afterwards, the output, the events that are shown and the exit status.
-/

namespace SchemaPage

/-- The variables that count, those that are set. -/
structure Environment where
  /-- The filter for events. -/
  filter : Option String := none
  logLevel : Option String := none
  logFormat : Option String := none
  includesLocation : Option String := none
  deriving DecidableEq, Repr

namespace Environment

/-- How events are reported. -/
def logConfig (env : Environment) : LogConfig :=
  .ofVariables env.logLevel env.logFormat env.includesLocation

/-- Which events are shown: those of the filter, if one is set and makes sense, and else those up to
the level. -/
def logFilter (env : Environment) : LogFilter :=
  (env.filter.bind LogFilter.parse?).getD (.ofLevel env.logConfig.level)

/-- The names of the variables. -/
def names : List String :=
  ["RUST_LOG", "PROTODOC_LOG_LEVEL", "PROTODOC_LOG_FORMAT", "PROTODOC_LOG_INCLUDE_LOCATION"]

/-- The variables among all that are set. -/
def ofVariables (value : String → Option String) : Environment :=
  { filter := value "RUST_LOG"
    logLevel := value "PROTODOC_LOG_LEVEL"
    logFormat := value "PROTODOC_LOG_FORMAT"
    includesLocation := value "PROTODOC_LOG_INCLUDE_LOCATION" }

/-- Only the variables with these names count. -/
theorem ofVariables_congr {f g : String → Option String} (h : ∀ name ∈ names, f name = g name) :
    ofVariables f = ofVariables g := by
  simp only [names, List.mem_cons, List.not_mem_nil, or_false, forall_eq_or_imp,
    forall_eq] at h
  simp [ofVariables, h]

end Environment

namespace Program

/-- The name of the program with its version. -/
def version : String := "protodoc-gen 0.1.0-alpha.1"

/-- What the program leaves behind. -/
structure Report where
  files : FileSystem
  output : String
  /-- The events that are shown. -/
  shown : List LogEvent
  /-- The mistake on the command line. -/
  usage : Option UsageError
  exitStatus : Nat

/-- Whether nothing is reported besides the output. -/
def Report.isQuiet (r : Report) : Bool := r.shown.isEmpty && r.usage.all (·.isAnswer)

/-- The lines that are reported besides the output. -/
def Report.remarks (env : Environment) (r : Report) : List String :=
  r.usage.elim [] UsageError.report ++ r.shown.map (LogEvent.line env.logConfig)

/-- Nothing is said in a quiet run, and something in any other. -/
theorem Report.remarks_eq_nil_iff (env : Environment) (r : Report) :
    r.remarks env = [] ↔ r.isQuiet = true := by
  cases h : r.usage <;>
    simp [remarks, isQuiet, h, and_comm, UsageError.report_eq_nil_iff]

/-- The output that answers a request, or none for a mistake. -/
def answer (words : List String) : UsageError → List String
  | .help => Help.ofWords words
  | .version => [version]
  | _ => []

/-- What the program leaves behind after a command. -/
def ofOutcome (env : Environment) (o : Outcome) : Report :=
  let filter := env.logFilter
  let (last, status) : List LogEvent × Nat := match o.result with
    | .ok () => ([], 0)
    | .error e => ([.failed e.fullMessage], 1)
  { files := o.files
    output := o.output
    shown := (o.events ++ last).filter filter.shows
    usage := none
    exitStatus := status }

/-- Run the program with some words and variables. -/
def run (env : Environment) (words : List String) (fs : FileSystem) : Report :=
  match Command.parse words with
  | .ok command => ofOutcome env (command.run fs)
  | .error e =>
    { files := fs
      output := String.join ((answer words e).map (· ++ "\n"))
      shown := []
      usage := some e
      exitStatus := e.exitStatus }

end Program

end SchemaPage
