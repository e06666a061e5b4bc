import SchemaPage.Files.Path
import SchemaPage.Order.Latest

/-!
# File trees

A tree of directories, files and symbolic links.  A place in a tree is given by the names that lead
to it from the top.

* `FileTree.descend`: what is at a place, no link being followed.
* `FileTree.put`: the tree with something else at a place.
* `FileTree.walkNode`: what lies at a place and below it, in order of names.
* `FileTree.changes`: what makes one tree of another.
-/

namespace SchemaPage

/-- A tree of directories, files and links. -/
inductive FileTree where
  | file (bytes : ByteArray)
  | link (target : String)
  | dir (entries : List (String × FileTree))

namespace FileTree

/-- A directory with nothing in it. -/
def empty : FileTree := dir []

/-- The entries of a directory; anything else has none. -/
def entries : FileTree → List (String × FileTree)
  | dir entries => entries
  | _ => []

/-- The entry of a directory under a name. -/
def child? (name : String) (t : FileTree) : Option FileTree :=
  (t.entries.find? (·.1 == name)).map (·.2)

/-- Whether this is a directory. -/
def isDir : FileTree → Bool
  | dir _ => true
  | _ => false

/-- What is at the place that some names lead to, no link being followed. -/
def descend : FileTree → List String → Option FileTree
  | t, [] => some t
  | t, name :: names => (t.child? name).bind (·.descend names)

@[simp] theorem descend_nil (t : FileTree) : t.descend [] = some t := rfl

theorem descend_cons (t : FileTree) (name : String) (names : List String) :
    t.descend (name :: names) = (t.child? name).bind (·.descend names) := rfl

/-- The tree with `t` at a place, whose directories are made if need be. -/
def put (t : FileTree) : List String → FileTree → FileTree
  | [], _ => t
  | name :: names, old =>
    dir (Order.put Prod.fst (name, put t names ((old.child? name).getD empty)) old.entries)

@[simp] theorem put_nil (t old : FileTree) : put t [] old = t := rfl

/-! ## Walking -/

/-- A path and what is there, no link being followed. -/
structure Entry where
  path : String
  node : FileTree

mutual

/-- What lies at `path` and below it, a directory before its entries. -/
def walkNode (path : String) : FileTree → List Entry
  | dir entries => ⟨path, dir entries⟩ :: walkEntries path entries
  | file bytes => [⟨path, file bytes⟩]
  | link target => [⟨path, link target⟩]

/-- What lies below the directory `path` with these entries, in their order. -/
def walkEntries (path : String) : List (String × FileTree) → List Entry
  | [] => []
  | (name, t) :: entries => walkNode (Path.join path name) t ++ walkEntries path entries

end

/-! ## Changes -/

/-- A change of a tree at a place. -/
inductive Change where
  | makeDir (names : List String)
  | writeFile (names : List String) (bytes : ByteArray)

mutual

/-- What makes `new` of what was at a place.  Nothing is ever taken away. -/
def changes (names : List String) (old : Option FileTree) : FileTree → List Change
  | dir entries =>
    (if old.any isDir then [] else [.makeDir names]) ++
      changesOfEntries names (old.getD empty) entries
  | file bytes =>
    match old with
    | some (file before) => if before == bytes then [] else [.writeFile names bytes]
    | _ => [.writeFile names bytes]
  | link _ => []

/-- What makes the entries of a directory of those that were there. -/
def changesOfEntries (names : List String) (old : FileTree) :
    List (String × FileTree) → List Change
  | [] => []
  | (name, t) :: rest =>
    changes (names ++ [name]) (old.child? name) t ++ changesOfEntries names old rest

end

end FileTree

end SchemaPage
