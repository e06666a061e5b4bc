import SchemaPage.Page.Generate
import SchemaPage.Page.Progress
import SchemaPage.Settings.CommandLine
import SchemaPage.Settings.Reader
import SchemaPage.Source.Load

/-!
# Running commands

A command is run on a file system.  It leaves a file system, an output and a list of events, and it
succeeds or fails.

Writing the page comes last: the output is not touched before a graph has been loaded.  A page that
stops half way leaves what was written of it.

* `RunError`: why a command fails.
* `Settings.generate`: write the page that settings ask for.
* `Command.run`: run a command.
-/

namespace SchemaPage

/-- Why a command fails. -/
inductive RunError where
  | settings (cause : SettingsError)
  | noOutputPath
  | load (cause : LoadError)
  | createDir (path : String) (cause : FileError)
  | createFile (path : String) (cause : FileError)
  | generate (path : String) (cause : RenderError)
  deriving DecidableEq, Repr

namespace RunError

/-- The report of the error. -/
def message : RunError → String
  | settings cause => cause.message
  | noOutputPath =>
    "Output path is required (use --output-path or set output_path in the config)"
  | load cause => cause.message
  | createDir path _ => "Error creating output directory " ++ path
  | createFile path _ => "Error creating output file " ++ path
  | generate path _ => "Error generating documentation into " ++ path

/-- What lies behind the error, the nearest first. -/
def causes : RunError → List String
  | settings cause => [cause.cause]
  | noOutputPath => []
  | load cause => cause.causes
  | createDir _ cause => [cause.message]
  | createFile _ cause => [cause.message]
  | generate _ cause => [cause.message, cause.cause]

/-- The report of the error with all that lies behind it. -/
def fullMessage (e : RunError) : String := ": ".intercalate (e.message :: e.causes)

end RunError

/-- What a command leaves behind. -/
structure Outcome where
  files : FileSystem
  output : String
  events : List LogEvent
  result : Except RunError Unit

/-- The outcome of a command that fails. -/
def Outcome.failure (fs : FileSystem) (events : List LogEvent) (e : RunError) : Outcome :=
  ⟨fs, "", events, .error e⟩

/-- The name of the page in the output directory. -/
def indexName : String := "index.html"

/-- The path of the page in an output directory. -/
def indexPath (dir : String) : String := Path.join dir indexName

namespace Settings

/-- The directories that are read. -/
def inputPaths (s : Settings) : List String := s.sources.includes ++ s.sources.roots.map (·.dir)

/-- Write the page of a graph into an output directory. -/
def writePage (s : Settings) (g : Graph) (dir : String) (fs : FileSystem)
    (events : List LogEvent) : Outcome :=
  match fs.createDirAll dir with
  | (fs, some e) => .failure fs events (.createDir dir e)
  | (fs, none) =>
    let index := indexPath dir
    let (page, result) := Document.generate g s.pageOptions .unlimited
    match fs.write index page.taken with
    | .error e => .failure fs events (.createFile index e)
    | .ok fs =>
      let events := events ++ Document.events g s.pageOptions
      match result with
      | .error e => .failure fs events (.generate index e)
      | .ok () => ⟨fs, "", events ++ [.written index], .ok ()⟩

/-- Write the page that the settings ask for. -/
def generate (s : Settings) (fs : FileSystem) : Outcome :=
  match s.outputPath with
  | none => .failure fs [] .noOutputPath
  | some dir =>
    let loaded := Graph.load fs s.sources
    match loaded.value with
    | .error e => .failure fs loaded.events (.load e)
    | .ok g => s.writePage g dir fs loaded.events

/-- Report the files and packages that the settings lead to. -/
def report (s : Settings) (deps : DepFilter) (fs : FileSystem) : Outcome :=
  let loaded := Graph.load fs s.sources
  match loaded.value with
  | .error e => .failure fs loaded.events (.load e)
  | .ok g => ⟨fs, g.report deps, loaded.events, .ok ()⟩

end Settings

namespace Command

/-- The settings in a file, or those that hold without one. -/
def baseSettings (fs : FileSystem) : Option String → Except SettingsError Settings
  | none => .ok {}
  | some path => Settings.load fs path

/-- The file with the settings that a command starts from. -/
def configPath : Command → Option String
  | generate config _ => config
  | list .. => none

/-- The settings that a command runs with. -/
def settings (fs : FileSystem) : Command → Except SettingsError Settings
  | generate config overrides => (baseSettings fs config).map (·.merge overrides)
  | list incPaths protoPaths _ => .ok { incPaths, protoPaths }

/-- Do what a command asks for under some settings. -/
def runWith (fs : FileSystem) (s : Settings) : Command → Outcome
  | generate .. => s.generate fs
  | list _ _ deps => s.report deps fs

/-- Run a command. -/
def run (fs : FileSystem) (c : Command) : Outcome :=
  match c.settings fs with
  | .error e => .failure fs [] (.settings e)
  | .ok s => c.runWith fs s

end Command

end SchemaPage
