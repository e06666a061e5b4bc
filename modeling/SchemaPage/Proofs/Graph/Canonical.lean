import SchemaPage.Page.Generate
import SchemaPage.Proofs.Graph.Resolve
import SchemaPage.Proofs.Text.Bytes

/-!
# Graphs are canonical

A graph keeps one file for each path, the last one that was given, and keeps the files in the order
of the bytes of their paths.  The halving that looks for a path relies on this order.  Where no path
is given twice, the graph does not depend on the order in which the files are given: the index is
filled from the files that are kept, so even among declarations with one full name the same one is
found.

* `SchemaFile.IsLast`: the last file with its path.
* `Graph.file?_eq_some_iff`, `Graph.file?_eq_none_iff`: what is found at a path.
* `Graph.ofFiles_of_perm`: the graph of files in another order.
* `Graph.ofFiles_canonical`: all of it together.
-/

namespace SchemaPage

/-- The file is the last one in the list with its path. -/
def SchemaFile.IsLast (files : List SchemaFile) (file : SchemaFile) : Prop :=
  ∃ before after, files = before ++ file :: after ∧ ∀ other ∈ after, other.path ≠ file.path

namespace Graph

variable {files : List SchemaFile}

theorem ascending_files (files : List SchemaFile) :
    Order.Ascending SchemaFile.path (ofFiles files).files :=
  Order.ascending_latest SchemaFile.path files

/-- The files that are kept are the last ones with their paths. -/
theorem mem_files_iff_isLast {file : SchemaFile} :
    file ∈ (ofFiles files).files ↔ SchemaFile.IsLast files file :=
  Order.mem_latest_iff

/-- What is found at a path is the last file with the path. -/
theorem file?_eq_some_iff {path : String} {file : SchemaFile} :
    (ofFiles files).file? path = some file ↔ SchemaFile.IsLast files file ∧ file.path = path := by
  have hfind : (ofFiles files).file? path = (ofFiles files).files.find? (·.path == path) :=
    (ascending_files files).bisect_eq_find?
  rw [← mem_files_iff_isLast]
  constructor
  · intro h
    refine ⟨?_, path_of_file? h⟩
    rw [hfind] at h
    exact List.mem_of_find?_eq_some h
  · rintro ⟨hmem, rfl⟩
    obtain ⟨other, hother⟩ := Option.isSome_iff_exists.1
      (List.find?_isSome.2 ⟨file, hmem, beq_self_eq_true _⟩ :
        ((ofFiles files).files.find? (·.path == file.path)).isSome)
    have hpath : other.path = file.path := by simpa using List.find?_some hother
    rw [hfind, hother,
      (ascending_files files).eq_of_key_eq (List.mem_of_find?_eq_some hother) hmem hpath]

/-- Nothing is found at a path that no file has. -/
theorem file?_eq_none_iff {path : String} :
    (ofFiles files).file? path = none ↔ ∀ file ∈ files, file.path ≠ path := by
  rw [Option.eq_none_iff_forall_ne_some]
  constructor
  · rintro h file hfile rfl
    obtain ⟨last, hlast, hpath⟩ := Order.exists_mem_latest SchemaFile.path hfile
    exact h last (file?_eq_some_iff.2 ⟨mem_files_iff_isLast.1 hlast, hpath⟩)
  · intro h file hfile
    obtain ⟨hlast, hpath⟩ := file?_eq_some_iff.1 hfile
    exact h file (Order.mem_of_mem_latest (mem_files_iff_isLast.2 hlast)) hpath

/-- Where no path is given twice the order of the files does not matter. -/
theorem ofFiles_of_perm {files' : List SchemaFile} (h : (files.map SchemaFile.path).Nodup)
    (hperm : files.Perm files') : ofFiles files' = ofFiles files := by
  unfold ofFiles
  rw [Order.latest_of_perm h hperm]

/-- The graph of a list of files has for each path the last file with it, in the order of the bytes
of the paths, and finds it there.  In whatever order files with different paths are given, the graph
has the same files and answers every question in the same way. -/
theorem ofFiles_canonical (files : List SchemaFile) :
    ((ofFiles files).files.Pairwise fun a b => Text.bytes a.path < Text.bytes b.path) ∧
    (∀ file, file ∈ (ofFiles files).files ↔ SchemaFile.IsLast files file) ∧
    (∀ path file, (ofFiles files).file? path = some file ↔
      SchemaFile.IsLast files file ∧ file.path = path) ∧
    (∀ path, (ofFiles files).file? path = none ↔ ∀ file ∈ files, file.path ≠ path) ∧
    ∀ (files' : List SchemaFile) (tolerant : Bool), (files.map SchemaFile.path).Nodup →
      files.Perm files' →
      let g := (ofFiles files).withTolerance tolerant
      let g' := (ofFiles files').withTolerance tolerant
      g'.files = g.files ∧ (∀ path, g'.file? path = g.file? path) ∧
      (∀ name, g'.lookup name = g.lookup name) ∧
      (∀ context typeName, g'.resolve context typeName = g.resolve context typeName) ∧
      (∀ kind selection, g'.list kind selection = g.list kind selection) ∧
      ∀ options sink, Document.generate g' options sink = Document.generate g options sink := by
  refine ⟨?_, fun _ => mem_files_iff_isLast, fun _ _ => file?_eq_some_iff,
    fun _ => file?_eq_none_iff, ?_⟩
  · exact (ascending_files files).imp fun hab => Text.compare_eq_lt_iff.1 hab
  · intro files' tolerant hdistinct hperm g g'
    have hsame : g' = g := congrArg (·.withTolerance tolerant) (ofFiles_of_perm hdistinct hperm)
    rw [hsame]
    exact ⟨rfl, fun _ => rfl, fun _ => rfl, fun _ _ => rfl, fun _ _ => rfl, fun _ _ => rfl⟩

/-- Two files that declare the same full name, the later path first. -/
def rivalFiles : List SchemaFile :=
  [⟨"b.proto", "p", .owned, [], [], [⟨"M", [], none⟩]⟩,
    ⟨"a.proto", "p", .imported, [], [⟨"M", [], none⟩], []⟩]

/-- In either order the message of the second path is found, and not the enum of the first. -/
theorem lookup_rivalFiles :
    (rivalFiles.map SchemaFile.path).Nodup ∧ rivalFiles.Perm rivalFiles.reverse ∧
      (∀ name, ((ofFiles rivalFiles.reverse).withTolerance true).lookup name =
        ((ofFiles rivalFiles).withTolerance true).lookup name) ∧
      ((ofFiles rivalFiles).lookup "p.M").map Declaration.kind = some .message := by
  have hdistinct : (rivalFiles.map SchemaFile.path).Nodup := by decide
  have hperm : rivalFiles.Perm rivalFiles.reverse := (List.reverse_perm rivalFiles).symm
  exact ⟨hdistinct, hperm,
    ((ofFiles_canonical rivalFiles).2.2.2.2 rivalFiles.reverse true hdistinct hperm).2.2.1,
    by decide +kernel⟩

end Graph
end SchemaPage
