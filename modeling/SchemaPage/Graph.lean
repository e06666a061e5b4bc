import SchemaPage.Order.Bisect
import SchemaPage.Order.Latest
import SchemaPage.Schema.Declaration

/-!
# The declaration graph

A graph is a set of schema files, one for each logical path, in which declarations are found by
their full names.  Under a full name the index has the place of a declaration.

* `Graph.ofFiles`: the graph of a list of files; of two files with one path the later is kept, and
  of two declarations with one full name the one that comes last.
* `Locator`, `Graph.at?`: the place of a declaration, and what stands there.
* `Graph.file?`, `Graph.lookup`: a file by its path, a declaration by its full name.
-/

namespace SchemaPage

/-- The place of a declaration: the position of its file, its kind, and its position among the
declarations of this kind in the file. -/
structure Locator where
  file : Nat
  kind : Kind
  item : Nat
  deriving DecidableEq, Repr

/-- A set of schema files with an index of their declarations. -/
structure Graph where
  /-- The files, ascending by path. -/
  files : List SchemaFile
  /-- The places of the declarations under their full names, ascending. -/
  index : List (String × Locator)
  /-- Whether a type name that nothing answers to is shown as written and not refused. -/
  tolerant : Bool
  deriving Repr

namespace Graph

/-- The declarations of a file with their places, where the file has the position `file`. -/
def placesIn (f : SchemaFile) (file : Nat) : List (Declaration × Locator) :=
  Kind.all.flatMap fun kind =>
    (f.declarations kind).zipIdx.map fun (d, item) => (d, ⟨file, kind, item⟩)

/-- The declarations of the files with their places: file by file, in each file the services, then
the enums, then the messages. -/
def places (files : List SchemaFile) : List (Declaration × Locator) :=
  files.zipIdx.flatMap fun (f, file) => placesIn f file

/-- The places of the declarations under their full names; of equal names the last one counts. -/
def indexOf (files : List SchemaFile) : List (String × Locator) :=
  Order.latest Prod.fst ((places files).map fun (d, l) => (d.fullName, l))

/-- The graph of a list of files, which refuses unknown type names.  A later file takes the place
of an earlier one with the same path. -/
def ofFiles (files : List SchemaFile) : Graph :=
  let kept := Order.latest SchemaFile.path files
  { files := kept, index := indexOf kept, tolerant := false }

/-- The same graph with another answer to unknown type names. -/
def withTolerance (g : Graph) (tolerant : Bool) : Graph := { g with tolerant }

@[simp] theorem files_withTolerance (g : Graph) (t : Bool) : (g.withTolerance t).files = g.files :=
  rfl

@[simp] theorem index_withTolerance (g : Graph) (t : Bool) : (g.withTolerance t).index = g.index :=
  rfl

@[simp] theorem tolerant_withTolerance (g : Graph) (t : Bool) :
    (g.withTolerance t).tolerant = t := rfl

/-- The file with the logical path `path`, found by halving. -/
def file? (g : Graph) (path : String) : Option SchemaFile :=
  Order.bisect SchemaFile.path path g.files

/-- The declaration at a place, if there is one. -/
def at? (g : Graph) (l : Locator) : Option Declaration :=
  g.files[l.file]?.bind fun f => (f.declarations l.kind)[l.item]?

/-- The declaration with the full name `fullName`, written without a leading dot. -/
def lookup (g : Graph) (fullName : String) : Option Declaration :=
  (g.index.find? (·.1 == fullName)).bind fun entry => g.at? entry.2

@[simp] theorem lookup_withTolerance (g : Graph) (t : Bool) :
    (g.withTolerance t).lookup = g.lookup := rfl

/-- Every declaration of one kind, in file order and then source order. -/
def declarations (g : Graph) (kind : Kind) : List Declaration :=
  g.files.flatMap (·.declarations kind)

theorem path_of_file? {g : Graph} {path : String} {file : SchemaFile}
    (h : g.file? path = some file) : file.path = path :=
  Order.key_of_bisect h

end Graph

end SchemaPage
