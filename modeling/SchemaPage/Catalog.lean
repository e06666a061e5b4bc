import SchemaPage.Graph

/-!
# Listings

Ordered and filtered views of a graph: the declarations of one kind, the members of one
declaration, the paths and the packages of the files.

A sorted listing is ordered by a key, which is a tuple of texts; of the declarations with one key
only the last is listed.  Tuples are compared part by part, so a dot or a slash inside a part
never makes two keys equal.

* `Graph.list`: the declarations of one kind that a `Selection` asks for.
* `Field.sortedByName`, `Field.sortedByTag`, `Rpc.sortedByName`: members in order of a key.
* `Graph.paths`, `Graph.packages`: of the files that a `DepFilter` admits.
-/

namespace SchemaPage

/-- The key that a listing is sorted by. -/
inductive SortKey where
  | packageThenName
  | name
  | pathThenPackageThenName
  deriving DecidableEq, Repr

/-- The key of a declaration. -/
def SortKey.of : SortKey → Declaration → List String
  | packageThenName, d => [d.package, d.name]
  | name, d => [d.name]
  | pathThenPackageThenName, d => [d.path, d.package, d.name]

/-- Which files contribute to a listing. -/
inductive DepFilter where
  | all
  | ownedOnly
  | importedOnly
  deriving DecidableEq, Repr

/-- Whether the file contributes. -/
def DepFilter.admits : DepFilter → SchemaFile → Bool
  | all, _ => true
  | ownedOnly, file => file.isOwned
  | importedOnly, file => !file.isOwned

/-- Which declarations are listed, and in which order. -/
structure Selection where
  /-- No key means file order and then source order, with nothing left out. -/
  sort : Option SortKey
  deps : DepFilter
  /-- When there are any, only the files with these paths contribute. -/
  paths : List String
  deriving DecidableEq, Repr

namespace Selection

/-- Whether the declarations of the file are listed. -/
def includes (selection : Selection) (file : SchemaFile) : Bool :=
  selection.deps.admits file && (selection.paths.isEmpty || selection.paths.contains file.path)

end Selection

namespace Graph

/-- The declarations of one kind from the selected files, in file order and then source order. -/
def candidates (g : Graph) (kind : Kind) (selection : Selection) : List Declaration :=
  (g.files.filter selection.includes).flatMap (·.declarations kind)

/-- The declarations of one kind that the selection asks for, in its order. -/
def list (g : Graph) (kind : Kind) (selection : Selection) : List Declaration :=
  match selection.sort with
  | none => g.candidates kind selection
  | some key => Order.latest key.of (g.candidates kind selection)

/-- The paths of the files that the filter admits, ascending. -/
def paths (g : Graph) (deps : DepFilter) : List String := (g.files.filter deps.admits).map (·.path)

/-- The packages of the files that the filter admits, ascending, each once. -/
def packages (g : Graph) (deps : DepFilter) : List String :=
  Order.latest id ((g.files.filter deps.admits).map (·.package))

/-- The paths and then the packages of the files that the filter admits, one to a line. -/
def report (g : Graph) (deps : DepFilter) : String :=
  let entry (s : String) : String := "  " ++ s ++ "\n"
  "Files:\n" ++ String.join ((g.paths deps).map entry) ++
    "Packages:\n" ++ String.join ((g.packages deps).map entry)

/-- What is listed comes from the selected files. -/
theorem mem_candidates_of_mem_list {g : Graph} {kind : Kind} {selection : Selection}
    {d : Declaration} (h : d ∈ g.list kind selection) : d ∈ g.candidates kind selection := by
  unfold list at h
  split at h
  · exact h
  · exact Order.mem_of_mem_latest h

end Graph

/-- The fields in ascending order of their names, the last one of each name. -/
def Field.sortedByName (fields : List Field) : List Field := Order.latest Field.name fields

/-- The fields in ascending order of the numbers they are sorted by, the last one of each. -/
def Field.sortedByTag (fields : List Field) : List Field := Order.latest Field.firstTag fields

/-- The methods in ascending order of their names, the last one of each name. -/
def Rpc.sortedByName (rpcs : List Rpc) : List Rpc := Order.latest Rpc.name rpcs

end SchemaPage
