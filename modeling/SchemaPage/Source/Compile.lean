import SchemaPage.Proto.Linker
import SchemaPage.Source.Library

/-!
# Compiling files

Files are compiled in the order of their imports: a file is linked once every file that it imports
has been.  Nothing may be missing, and no file may import itself, directly or through others.

* `CompileError`: why files are not compiled.
* `Compiler.require`: link a file and what it imports.
* `Compiler.compile`: link the files at some paths.
-/

namespace SchemaPage

open Proto

/-- Why files are not compiled. -/
inductive CompileError where
  /-- No root holds the path. -/
  | outside (path : String)
  /-- Another file answers to the logical name of the path. -/
  | shadowed (path : String) (other : Option String)
  | missing (name : String)
  | missingImport (name : String)
  | broken (fault : Fault)
  /-- Files that import one another in a circle, from the outermost on. -/
  | circular (names : List String)
  /-- A name in the file has no meaning, or something in it clashes. -/
  | unlinked (name : String)
  deriving DecidableEq, Repr

/-- The report of the error, and what lies behind it. -/
def CompileError.messages : CompileError → List String
  | outside path => ["path '" ++ path ++ "' is not in any include path"]
  | shadowed path other =>
    ["path '" ++ path ++ "' is shadowed by '" ++ other.getD "" ++ "' in the include paths"]
  | missing name => ["file '" ++ name ++ "' not found"]
  | missingImport name => ["import '" ++ name ++ "' not found"]
  | broken fault => fault.messages
  | circular names => ["import cycle detected: " ++ " -> ".intercalate names]
  | unlinked name => ["failed to link file '" ++ name ++ "'"]

/-- A file that has been compiled. -/
structure Compiled where
  linked : Linked
  /-- The path that the file was read from, unless it is well known. -/
  path : Option String

namespace Compiler

/-- Whether the file with a logical name has been compiled. -/
def done (pool : List Compiled) (name : String) : Bool := pool.any (·.linked.file.name == name)

/-- Link a file whose imports have been compiled. -/
def finish (pool : List Compiled) (name : String) (path : Option String) (f : FileDescriptor) :
    Except CompileError (List Compiled) :=
  match f.link? (pool.map (·.linked)) with
  | some linked => .ok (pool ++ [⟨linked, path⟩])
  | none => .error (.unlinked name)

/-- Link the files with some names, and before each what it imports.  `above` are the files that are
being linked around them.  The fuel bounds the depth of imports. -/
def require (library : Library) :
    (fuel : Nat) → (above : List String) → List Compiled → List String →
      Except CompileError (List Compiled)
  | 0, above, pool, names =>
    match names with
    | [] => .ok pool
    | name :: _ => .error (.circular (name :: above).reverse)
  | fuel + 1, above, pool, names =>
    names.foldlM (fun pool name =>
      if above.contains name then .error (.circular (name :: above).reverse)
      else if done pool name then .ok pool
      else
        match library name with
        | .missing => .error (.missingImport name)
        | .broken fault => .error (.broken fault)
        | .found path f => do
          let pool ← require library fuel (name :: above) pool (f.dependencies.map (·.path))
          finish pool name path f) pool

/-- Whether a path is the one that a file was read from. -/
def isPath (path : String) (opened : Option String) : Bool :=
  opened.any fun p => Path.parts p == Path.parts path

/-- Link the file at a path below one of the roots, and before it what it imports. -/
def compileFile (library : Library) (roots : List OwnedRoot) (fuel : Nat)
    (pool : List Compiled) (path : String) : Except CompileError (List Compiled) :=
  match roots.findSome? (·.logicalName path) with
  | none => .error (.outside path)
  | some name =>
    match pool.find? (·.linked.file.name == name) with
    | some other =>
      if isPath path other.path then .ok pool else .error (.shadowed path other.path)
    | none =>
      match library name with
      | .missing => .error (.missing name)
      | .broken fault => .error (.broken fault)
      | .found opened f =>
        if isPath path opened then do
          let pool ← require library fuel [name] pool (f.dependencies.map (·.path))
          finish pool name opened f
        else .error (.shadowed path opened)

/-- Link the files at some paths below the roots, and all that they import.  All names that are
imported are among `imports`. -/
def compile (library : Library) (roots : List OwnedRoot) (imports paths : List String) :
    Except CompileError (List FileDescriptor) :=
  (paths.foldlM (compileFile library roots (imports.length + 1)) []).map
    (·.map (·.linked.file))

end Compiler

end SchemaPage
