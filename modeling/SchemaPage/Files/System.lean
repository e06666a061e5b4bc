import SchemaPage.Files.Tree

/-!
# File systems

A file system is a tree with a working directory, from which every path that is not absolute
starts.

A path is looked up step by step.  A link in the middle of a path is always followed, by putting the
steps of its target in front of those that are left; the number of links on one way is bounded,
which ends the search in a circle of links.

* `FileSystem.locate`: where a path leads.
* `FileSystem.node?`, `FileSystem.isFile`, `FileSystem.read`: what is there.
* `FileSystem.walk`: what lies below a directory, in order of names.
* `FileSystem.createDirAll`, `FileSystem.write`: the changes to a file system.
-/

namespace SchemaPage

/-- Why a path cannot be used as asked. -/
inductive FileError where
  | notFound
  | notADirectory
  | isADirectory
  | alreadyExists
  | nameTooLong
  | tooManyLinks
  /-- A path with a null character in it. -/
  | nullInPath
  deriving DecidableEq, Repr

/-- The report of the error. -/
def FileError.message : FileError → String
  | notFound => "No such file or directory (os error 2)"
  | notADirectory => "Not a directory (os error 20)"
  | isADirectory => "Is a directory (os error 21)"
  | alreadyExists => "File exists (os error 17)"
  | nameTooLong => "File name too long (os error 36)"
  | tooManyLinks => "Too many levels of symbolic links (os error 40)"
  | nullInPath => "file name contained an unexpected NUL byte"

/-- A tree with a working directory, given by its place. -/
structure FileSystem where
  tree : FileTree
  workingDir : List String

namespace FileSystem

/-! ## Looking up paths -/

/-- A step on the way along a path. -/
inductive Step where
  /-- Go to the top. -/
  | top
  /-- Stay, which only a directory allows. -/
  | stay
  | up
  | down (name : String)
  deriving DecidableEq, Repr

/-- The steps of a path. -/
def steps (path : String) : List Step :=
  (if Path.isAbsolute path then [.top] else []) ++
  (Text.split '/' path).map fun stretch =>
    if stretch = "" ∨ stretch = "." then .stay
    else if stretch = ".." then .up
    else .down stretch

/-- Where a path leads: to something that is there, or to a free name in a directory. -/
inductive Place where
  | present (names : List String)
  | absent (dir : List String) (name : String)
  deriving DecidableEq, Repr

/-- How many bytes the name of an entry may have. -/
def maxNameSize : Nat := 255

/-- How many bytes a path may have. -/
def maxPathSize : Nat := 4095

/-- Go on from the place `names`.  A link is handed to `follow`, with the directory that holds it,
its target and the steps that are left after it; one at the very end is handed over only if `last`
is set. -/
def advance (tree : FileTree) (last : Bool)
    (follow : List String → String → List Step → Except FileError Place) :
    List String → List Step → Except FileError Place
  | names, [] => .ok (.present names)
  | names, step :: rest =>
    match tree.descend names with
    | some (.dir entries) =>
      match step with
      | .top => advance tree last follow [] rest
      | .stay => advance tree last follow names rest
      | .up => advance tree last follow names.dropLast rest
      | .down name =>
        match (FileTree.dir entries).child? name with
        | none =>
          if maxNameSize < name.utf8ByteSize then .error .nameTooLong
          else if rest.isEmpty then .ok (.absent names name)
          else .error .notFound
        | some (.link target) =>
          if rest.isEmpty && !last then .ok (.present (names ++ [name]))
          else follow names target rest
        | some _ => advance tree last follow (names ++ [name]) rest
    | _ => .error .notADirectory

/-- Go on from a place along some steps, over at most `links` links. -/
def locateFrom (tree : FileTree) (last : Bool) :
    (links : Nat) → List String → List Step → Except FileError Place
  | 0 => advance tree last fun _ _ _ => .error .tooManyLinks
  | links + 1 => advance tree last fun names target rest =>
    if target = "" then .error .notFound
    else locateFrom tree last links names (steps target ++ rest)

/-- How many links a way may have. -/
def maxLinks : Nat := 40

/-- Where a path leads; a link at its end is followed if `last` is set. -/
def locate (fs : FileSystem) (path : String) (last : Bool) : Except FileError Place :=
  if path = "" then .error .notFound
  else if path.toList.contains '\x00' then .error .nullInPath
  else if maxPathSize < path.utf8ByteSize then .error .nameTooLong
  else locateFrom fs.tree last maxLinks fs.workingDir (steps path)

/-- What a path leads to, all links being followed. -/
def node? (fs : FileSystem) (path : String) : Except FileError FileTree :=
  match fs.locate path true with
  | .ok (.present names) =>
    match fs.tree.descend names with
    | some t => .ok t
    | none => .error .notFound
  | .ok (.absent _ _) => .error .notFound
  | .error e => .error e

/-- Whether a path leads to a file. -/
def isFile (fs : FileSystem) (path : String) : Bool :=
  match fs.node? path with
  | .ok (.file _) => true
  | _ => false

/-- Whether a path leads to a directory. -/
def isDirectory (fs : FileSystem) (path : String) : Bool :=
  match fs.node? path with
  | .ok t => t.isDir
  | .error _ => false

/-- The bytes of the file that a path leads to. -/
def read (fs : FileSystem) (path : String) : Except FileError ByteArray :=
  match fs.node? path with
  | .ok (.file bytes) => .ok bytes
  | .ok _ => .error .isADirectory
  | .error e => .error e

/-- What lies at a path and below it.  A link at the path itself is followed, those below it are
not. -/
def walk (fs : FileSystem) (path : String) : List FileTree.Entry :=
  match fs.node? path with
  | .ok t => FileTree.walkNode path t
  | .error _ => []

/-! ## Changes -/

/-- The file system with something else at a place. -/
def put (fs : FileSystem) (names : List String) (t : FileTree) : FileSystem :=
  { fs with tree := FileTree.put t names fs.tree }

/-- The path without the slashes at its end. -/
def withoutSlashes (path : String) : String :=
  String.ofList (path.toList.reverse.dropWhile (· == '/')).reverse

/-- Make one directory; slashes at the end of the path do not count, except for its size. -/
def createDir (fs : FileSystem) (path : String) : Except FileError FileSystem :=
  if path.toList.contains '\x00' then .error .nullInPath
  else if maxPathSize < path.utf8ByteSize then .error .nameTooLong
  else
    match fs.locate (withoutSlashes path) false with
    | .ok (.absent names name) => .ok (fs.put (names ++ [name]) .empty)
    | .ok (.present _) => .error .alreadyExists
    | .error e => .error e

/-- Make a directory that may be there already. -/
def ensureDir (fs : FileSystem) (path : String) : FileSystem × Option FileError :=
  match fs.createDir path with
  | .ok fs => (fs, none)
  | .error e => if fs.isDirectory path then (fs, none) else (fs, some e)

/-- Make the first of some directories, each of which stands in the next.  Those after it are made
first where they are missing. -/
def ensureDirs (fs : FileSystem) : List String → FileSystem × Option FileError
  | [] => (fs, none)
  | path :: outer =>
    match fs.ensureDir path with
    | (fs, none) => (fs, none)
    | (fs, some .notFound) =>
      match fs.ensureDirs outer with
      | (fs, none) => fs.ensureDir path
      | (fs, some e) => (fs, some e)
    | (fs, some e) => (fs, some e)

/-- A path and then the directories above it, innermost first, without the place that it starts
from. -/
def ancestors (path : String) : List String :=
  let parts := Path.parts path
  match (List.range parts.length).reverse with
  | [] => []
  | _ :: outer => path :: outer.map fun n => Path.ofParts (parts.take (n + 1))

/-- Make a directory with all the directories above it.  Those made before a failure stay. -/
def createDirAll (fs : FileSystem) (path : String) : FileSystem × Option FileError :=
  fs.ensureDirs (ancestors path)

/-- Write a file, a new one or in the place of an old one. -/
def write (fs : FileSystem) (path : String) (bytes : ByteArray) : Except FileError FileSystem :=
  match fs.locate path true with
  | .ok (.absent names name) => .ok (fs.put (names ++ [name]) (.file bytes))
  | .ok (.present names) =>
    match fs.tree.descend names with
    | some (.file _) => .ok (fs.put names (.file bytes))
    | _ => .error .isADirectory
  | .error e => .error e

end FileSystem

end SchemaPage
