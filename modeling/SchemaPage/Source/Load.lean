import SchemaPage.Graph
import SchemaPage.Log
import SchemaPage.Schema.OfDescriptor
import SchemaPage.Source.Closure
import SchemaPage.Source.Compile
import SchemaPage.Text.Quoted

/-!
# Loading a graph

The schema files below the owned roots are found first, all of them.  Then they are read together
with what they import: compiled, so that every name has a meaning, or only gathered, so that
imports may be missing and names stay as they are written.

* `ownedFiles`: the schema files below the owned roots.
* `descriptors`: their descriptors, and those of the files that they import.
* `Graph.load`: the graph, with `LoadError` when there is none.
-/

namespace SchemaPage

open Proto

/-- Why no graph is loaded. -/
inductive LoadError where
  /-- An owned root leads nowhere. -/
  | unreadableRoot (dir : String) (cause : FileError)
  /-- An owned root is no directory. -/
  | rootNotDirectory (dir : String)
  /-- The files are not compiled. -/
  | compile (cause : CompileError)
  /-- A file cannot be read. -/
  | parse (name : String) (fault : Fault)
  deriving DecidableEq, Repr

namespace LoadError

/-- The report of the error. -/
def message : LoadError → String
  | unreadableRoot dir _ => "Error reading proto_path " ++ Text.quote dir
  | rootNotDirectory dir => "proto_path isn't a directory: " ++ dir
  | compile _ => "Error adding proto files to the dependency graph"
  | parse name _ => "Error parsing proto file " ++ name

/-- What lies behind the error. -/
def causes : LoadError → List String
  | unreadableRoot _ cause => [cause.message]
  | rootNotDirectory _ => []
  | compile cause => cause.messages
  | parse _ fault => fault.messages

end LoadError

/-! ## Owned files -/

/-- A schema file below an owned root. -/
structure OwnedFile where
  /-- The logical name that the root gives to the file. -/
  name : String
  path : String
  deriving DecidableEq, Repr

/-- The schema files below an owned root, in the order of a walk.  Links below the root are not
followed. -/
def OwnedRoot.files (fs : FileSystem) (root : OwnedRoot) : List OwnedFile :=
  (fs.walk root.dir).filterMap fun entry =>
    match entry.node with
    | .file _ =>
      if Path.hasExtension "proto" entry.path then
        (root.logicalName entry.path).map fun name => ⟨name, entry.path⟩
      else none
    | _ => none

/-- The schema files below an owned root, if the root is a directory. -/
def OwnedRoot.files? (fs : FileSystem) (root : OwnedRoot) : Except LoadError (List OwnedFile) :=
  match fs.node? root.dir with
  | .error e => .error (.unreadableRoot root.dir e)
  | .ok t => if t.isDir then .ok (root.files fs) else .error (.rootNotDirectory root.dir)

/-- The event for an owned file. -/
def OwnedFile.event (f : OwnedFile) : LogEvent := .ownedFile f.name f.path

/-- The schema files below the owned roots, root by root. -/
def ownedFiles (fs : FileSystem) : List OwnedRoot → Logged (Except LoadError (List OwnedFile))
  | [] => ⟨[], .ok []⟩
  | root :: roots =>
    match root.files? fs with
    | .error e => ⟨[], .error e⟩
    | .ok files =>
      let rest := ownedFiles fs roots
      ⟨files.map OwnedFile.event ++ rest.events, rest.value.map (files ++ ·)⟩

/-- The logical names of owned files, ascending, each once. -/
def ownedNames (files : List OwnedFile) : List String := Order.latest id (files.map (·.name))

/-! ## Descriptors -/

/-- The descriptors of owned files and of what they import, some imports possibly missing. -/
def gathered (fs : FileSystem) (sources : Sources) (owned : List OwnedFile) :
    Logged (Except LoadError (List FileDescriptor)) :=
  match Closure.gather (sources.library fs) (allImports fs) (ownedNames owned) with
  | .ok c => ⟨c.missing.map .missingImport, .ok c.files⟩
  | .error b => ⟨b.before.missing.map .missingImport, .error (.parse b.name b.fault)⟩

/-- The descriptors of owned files and of what they import, every name with its meaning. -/
def compiled (fs : FileSystem) (sources : Sources) (owned : List OwnedFile) :
    Except LoadError (List FileDescriptor) :=
  (Compiler.compile (sources.library fs) sources.roots (allImports fs)
    (owned.map (·.path))).mapError .compile

/-- The descriptors of owned files and of what they import. -/
def descriptors (fs : FileSystem) (sources : Sources) (owned : List OwnedFile) :
    Logged (Except LoadError (List FileDescriptor)) :=
  if sources.skipMissing then gathered fs sources owned
  else ⟨[], compiled fs sources owned⟩

/-! ## The graph -/

/-- The schema file in a descriptor; it is owned if its name is among the owned ones. -/
def schemaFile (owned : List String) (f : FileDescriptor) : SchemaFile :=
  .ofDescriptor (if owned.contains f.name then .owned else .imported) f

namespace Graph

/-- The graph of the files that sources lead to. -/
def load (fs : FileSystem) (sources : Sources) : Logged (Except LoadError Graph) :=
  let owned := ownedFiles fs sources.roots
  match owned.value with
  | .error e => ⟨owned.events, .error e⟩
  | .ok ownedList =>
    let found := descriptors fs sources ownedList
    let events := owned.events ++ found.events
    match found.value with
    | .error e => ⟨events, .error e⟩
    | .ok files =>
      let files := files.map (schemaFile (ownedNames ownedList))
      let count := files.countP (·.isOwned)
      ⟨events ++ [.loaded count (files.length - count)],
        .ok ((ofFiles files).withTolerance sources.skipMissing)⟩

end Graph

end SchemaPage
