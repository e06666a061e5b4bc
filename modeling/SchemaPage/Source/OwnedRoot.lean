import SchemaPage.Files.Path
import SchemaPage.Text.Blank

/-!
# Owned roots

An owned root is a directory whose schema files are documented, mounted at a logical path: the
file `dir/a/b.proto` has the logical name `mount/a/b.proto`, or `a/b.proto` when nothing is
mounted in front.

* `OwnedRoot.parse`: a root as it is written on the command line, `dir` or `dir;mount`.
* `OwnedRoot.logicalName`: from a path to the logical name.
* `OwnedRoot.relativeName`: from a logical name back to a path below the directory.
-/

namespace SchemaPage

/-- A directory whose schema files are documented. -/
structure OwnedRoot where
  /-- The directory, as it is written. -/
  dir : String
  /-- The logical path at which the directory is mounted; empty for none. -/
  mount : String
  deriving DecidableEq, Repr

namespace OwnedRoot

/-- A root in the form `dir` or `dir;mount`.  Slashes at the ends of the mount do not count. -/
def parse (spec : String) : OwnedRoot :=
  let chars := spec.toList
  let mount := (chars.dropWhile (· != ';')).drop 1
  { dir := String.ofList (chars.takeWhile (· != ';'))
    mount := String.ofList (Text.dropEnds (· == '/') mount) }

/-- The logical name of what is at `path`, if that is below the directory. -/
def logicalName (root : OwnedRoot) (path : String) : Option String :=
  match (Path.parts root.dir).isPrefixOf? (Path.parts path) with
  | none | some [] => none
  | some below =>
    let relative := Path.ofParts below
    some (if root.mount = "" then relative else root.mount ++ "/" ++ relative)

/-- The text after `start`, if the text starts so. -/
def dropStart? (start text : String) : Option String :=
  (start.toList.isPrefixOf? text.toList).map String.ofList

/-- The path below the directory that a logical name belongs to, if the name starts with the
mount. -/
def relativeName (root : OwnedRoot) (name : String) : Option String :=
  if root.mount = "" then some name else dropStart? (root.mount ++ "/") name

end OwnedRoot

end SchemaPage
