import SchemaPage.Catalog
import SchemaPage.Proofs.Graph.Canonical
import SchemaPage.Proofs.Order.Latest
import SchemaPage.Proofs.Text.Bytes

/-!
# What is listed

A listing is made by putting one declaration after the other into an ordered table, where a later
one takes the place of an earlier one with the same key.  Here it is described without the table: by
the files that are asked for, the order of the keys, and the last declaration of each key.  A key is
a tuple of texts, and nothing is ever put between its parts; so a dot or a slash in a part cannot
make two keys equal or change their order.

* `Selection.Asks`: the files that are asked for.
* `SortKey.Before`, `SortKey.Same`: the order of keys and their equality, part by part.
* `SortKey.Sorts`: the last declaration of each key, in ascending order.
* `SortKey.latest_eq_iff_sorts`: this is what the table holds, and nothing else is.
* `Graph.list_iff_sorts`: what a listing of a graph is.
-/

namespace SchemaPage

open Text

/-! ## Selections -/

/-- What a filter says of a file. -/
def DepFilter.Wants : DepFilter → SchemaFile → Prop
  | all, _ => True
  | ownedOnly, file => file.ownership = .owned
  | importedOnly, file => file.ownership = .imported

/-- The file is asked for: the filter wants it, and it has one of the paths if any are given. -/
def Selection.Asks (selection : Selection) (file : SchemaFile) : Prop :=
  selection.deps.Wants file ∧ (selection.paths = [] ∨ file.path ∈ selection.paths)

theorem DepFilter.admits_iff_wants {deps : DepFilter} {file : SchemaFile} :
    deps.admits file = true ↔ deps.Wants file := by
  cases deps with
  | all => exact iff_of_true rfl trivial
  | ownedOnly => exact beq_iff_eq
  | importedOnly =>
    simp only [admits, Wants, SchemaFile.isOwned]
    cases file.ownership <;> decide

theorem Selection.includes_iff_asks {selection : Selection} {file : SchemaFile} :
    selection.includes file = true ↔ selection.Asks file := by
  unfold includes Asks
  rw [Bool.and_eq_true, DepFilter.admits_iff_wants, Bool.or_eq_true, List.isEmpty_iff,
    List.contains_iff_mem]

/-! ## Keys -/

namespace SortKey

/-- One declaration comes before another: the first part in which their keys differ decides, by the
order of its bytes. -/
def Before : SortKey → Declaration → Declaration → Prop
  | packageThenName, d, e =>
    bytes d.package < bytes e.package ∨ d.package = e.package ∧ bytes d.name < bytes e.name
  | name, d, e => bytes d.name < bytes e.name
  | pathThenPackageThenName, d, e =>
    bytes d.path < bytes e.path ∨ d.path = e.path ∧
      (bytes d.package < bytes e.package ∨ d.package = e.package ∧ bytes d.name < bytes e.name)

/-- Two declarations have one key: every part of it is the same. -/
def Same : SortKey → Declaration → Declaration → Prop
  | packageThenName, d, e => d.package = e.package ∧ d.name = e.name
  | name, d, e => d.name = e.name
  | pathThenPackageThenName, d, e => d.path = e.path ∧ d.package = e.package ∧ d.name = e.name

/-- The declaration is the last one in the list with its key. -/
def IsLast (key : SortKey) (ds : List Declaration) (d : Declaration) : Prop :=
  ∃ before after, ds = before ++ d :: after ∧ ∀ e ∈ after, ¬ key.Same e d

/-- A list has the last declaration of each key that occurs in `ds`, in strictly ascending order,
and nothing else. -/
structure Sorts (key : SortKey) (ds listed : List Declaration) : Prop where
  ascending : listed.Pairwise key.Before
  mem_iff : ∀ d, d ∈ listed ↔ key.IsLast ds d
  one : ∀ d ∈ ds, ∃! e, e ∈ listed ∧ key.Same e d

variable {key : SortKey} {d e : Declaration} {ds listed : List Declaration}

theorem of_eq_of_iff_same : key.of d = key.of e ↔ key.Same d e := by
  cases key <;> simp [of, Same]

/-- Keys are compared part by part. -/
theorem compare_of_eq_lt_iff : compare (key.of d) (key.of e) = .lt ↔ key.Before d e := by
  cases key <;>
    simp only [of, Before, List.compare_cons_cons, Ordering.then_eq_lt, compare_eq_lt_iff,
      Std.LawfulEqOrd.compare_eq_iff_eq, Std.ReflOrd.compare_self, reduceCtorEq, and_false,
      or_false]

theorem ascending_iff_pairwise : Order.Ascending key.of listed ↔ listed.Pairwise key.Before :=
  List.Pairwise.iff fun _ _ => compare_of_eq_lt_iff

/-- The table holds the last declaration of each key in ascending order, and no other list does. -/
theorem latest_eq_iff_sorts : Order.latest key.of ds = listed ↔ key.Sorts ds listed := by
  rw [Order.latest_eq_iff_holdsLast fun _ _ => Iff.rfl]
  constructor
  · rintro ⟨hascending, hmem, hone⟩
    simp only [ne_eq, of_eq_of_iff_same] at hmem hone
    exact ⟨ascending_iff_pairwise.1 hascending, hmem, hone⟩
  · rintro ⟨hascending, hmem, hone⟩
    simp only [IsLast, ← of_eq_of_iff_same] at hmem hone
    exact ⟨ascending_iff_pairwise.2 hascending, hmem, hone⟩

end SortKey

/-! ## Listings -/

namespace Graph

/-- A listing draws on the declarations of its kind in the files that are asked for, in ascending
order of the paths of the files and then in source order.  Without a key it is all of them; with a
key it is the one list that has the last of them for each key, in strictly ascending order of the
keys. -/
theorem list_iff_sorts (files : List SchemaFile) (tolerant : Bool) (kind : Kind)
    (selection : Selection) :
    let g := (ofFiles files).withTolerance tolerant
    ∃ asked : List SchemaFile,
      (asked.Pairwise fun f f' => bytes f.path < bytes f'.path) ∧
      (∀ f, f ∈ asked ↔ f ∈ g.files ∧ selection.Asks f) ∧
      match selection.sort with
      | none => g.list kind selection = asked.flatMap (·.declarations kind)
      | some key => ∀ listed, g.list kind selection = listed ↔
          key.Sorts (asked.flatMap (·.declarations kind)) listed := by
  intro g
  have hfiles : g.files.Pairwise fun f f' => bytes f.path < bytes f'.path :=
    (ascending_files files).imp compare_eq_lt_iff.1
  refine ⟨g.files.filter selection.includes, hfiles.filter _, fun f => ?_, ?_⟩
  · rw [List.mem_filter, Selection.includes_iff_asks]
  · unfold list
    cases selection.sort with
    | none => rfl
    | some key => exact fun listed => SortKey.latest_eq_iff_sorts

/-- The keys of `b.c` in the package `a` and of `c` in the package `a.b` are not one key, though the
full names are equal; of two declarations with one key the one with the greater path is listed. -/
example :
    let message : Message := ⟨"c", [], none⟩
    let files : List SchemaFile :=
      [⟨"z.proto", "a.b", .owned, [], [], [message]⟩, ⟨"y.proto", "a.b", .owned, [], [], [message]⟩,
        ⟨"x.proto", "a", .owned, [], [], [⟨"b.c", [], none⟩]⟩]
    ((ofFiles files).list .message ⟨some .packageThenName, .ownedOnly, []⟩).map
      (fun d => (d.path, d.package, d.name)) =
        [("x.proto", "a", "b.c"), ("z.proto", "a.b", "c")] := by
  decide +kernel

end Graph
end SchemaPage
