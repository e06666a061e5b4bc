import SchemaPage.Files.System
import SchemaPage.Proto.Reader
import SchemaPage.Proto.WellKnown
import SchemaPage.Settings

/-!
# Where schema files are found

A logical name is looked for in several places, one after the other: below the owned roots, below
the directories for imports, and among the well-known files.  The first place that has the name
answers for it, even if what it has cannot be read.

* `Opening`: what is found under a name.
* `Library`: a place, or several.
* `Sources.library`: the places in their order.
* `OwnedRoot.pathOf?`: the file that an owned root has under a logical name.
-/

namespace SchemaPage

open Proto

/-- What is wrong with something that is found. -/
inductive Fault where
  | unreadable (path : String) (cause : FileError)
  /-- The bytes are no text. -/
  | notText (path : String)
  /-- The text is no schema. -/
  | malformed
  deriving DecidableEq, Repr

/-- The report of the fault, and what lies behind it. -/
def Fault.messages : Fault → List String
  | unreadable path cause => ["error opening file '" ++ path ++ "'", cause.message]
  | notText path => ["file '" ++ path ++ "' is not valid utf-8"]
  | malformed => ["syntax error"]

/-- What is found under a logical name. -/
inductive Opening where
  /-- A file, with its path unless it is well known. -/
  | found (path : Option String) (file : FileDescriptor)
  | missing
  | broken (fault : Fault)

/-- The names that a place answers to. -/
abbrev Library := String → Opening

namespace Library

/-- A place with nothing in it. -/
def empty : Library := fun _ => .missing

/-- Two places, the first of which is asked first. -/
def orElse (first second : Library) : Library := fun name =>
  match first name with
  | .missing => second name
  | opening => opening

/-- Several places in their order. -/
def ofList : List Library → Library
  | [] => empty
  | first :: rest => orElse first (ofList rest)

/-- The well-known files. -/
def wellKnown : Library := fun name =>
  match WellKnown.file? name with
  | some f => .found none f
  | none => .missing

end Library

/-- What is found under a logical name in the file at a path. -/
def readSchema (name path : String) (bytes : ByteArray) : Opening :=
  match String.fromUTF8? bytes with
  | none => .broken (.notText path)
  | some text =>
    match FileDescriptor.parse? name text with
    | none => .broken .malformed
    | some f => .found (some path) f

/-- What is found under a logical name at a path.  Only a path that leads nowhere is passed on to
the next place. -/
def openAt (fs : FileSystem) (name path : String) : Opening :=
  match fs.read path with
  | .error .notFound => .missing
  | .error e => .broken (.unreadable path e)
  | .ok bytes => readSchema name path bytes

/-- The file below the directory of an owned root that has the logical name. -/
def OwnedRoot.pathOf? (fs : FileSystem) (root : OwnedRoot) (name : String) : Option String :=
  match root.relativeName name with
  | none => none
  | some relative =>
    let path := Path.join root.dir relative
    if fs.isFile path then some path else none

/-- The files below an owned root. -/
def OwnedRoot.library (fs : FileSystem) (root : OwnedRoot) : Library := fun name =>
  match root.pathOf? fs name with
  | some path => openAt fs name path
  | none => .missing

/-- The files below a directory for imports. -/
def includeLibrary (fs : FileSystem) (dir : String) : Library := fun name =>
  openAt fs name (Path.join dir name)

/-- The places where names are looked for, in their order. -/
def Sources.library (fs : FileSystem) (sources : Sources) : Library :=
  .ofList (sources.roots.map (OwnedRoot.library fs) ++
    sources.includes.map (includeLibrary fs) ++ [.wellKnown])

/-! ## The names that occur -/

/-- The imports in the bytes of a file, which has none if it cannot be read. -/
def importsIn (bytes : ByteArray) : List String :=
  match readSchema "" "" bytes with
  | .found _ f => f.dependencies.map (·.path)
  | _ => []

mutual

/-- Every import in the files of a tree. -/
def FileTree.imports : FileTree → List String
  | .file bytes => importsIn bytes
  | .link _ => []
  | .dir entries => importsOfEntries entries

/-- Every import in the files below some entries. -/
def importsOfEntries : List (String × FileTree) → List String
  | [] => []
  | (_, t) :: rest => t.imports ++ importsOfEntries rest

end

/-- Every import that a search in the file system can meet. -/
def allImports (fs : FileSystem) : List String :=
  fs.tree.imports ++ WellKnown.files.flatMap fun f => f.dependencies.map (·.path)

end SchemaPage
