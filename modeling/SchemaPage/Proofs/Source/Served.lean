import SchemaPage.Proofs.Files.Below
import SchemaPage.Proofs.Proto.Imports
import SchemaPage.Proofs.Source.OwnedRoot

/-!
# What an owned root serves

An owned root is there for the files inside its directory, each under its logical name.  What is
left of a name after the mount is joined to the directory as it is, so a name may lead out, or to a
file by a detour.  It is served as it should be when it leads inside and spells out what it adds to
the directory.

Two dots are among what may be spelled out, so a file that is served can be served under further
names.  Only one of them is made of names alone.  No import has another one: a file with one dot or
two between the slashes of an import, or with nothing between them, is not read.  What is left are
the names under which other roots mount their files, and a mount may be any text.

* `OwnedRoot.pathOf?_eq_some_iff`: the file that a root has under a name.
* `OwnedRoot.logicalName_eq_some_iff`: the logical name of a path.
* `OwnedRoot.Serves`: a file inside the directory, found under its own name.
* `OwnedRoot.serves_iff`: the names under which files are served.
* `OwnedRoot.serves_imports`: the names that stand in imports.
-/

namespace SchemaPage
namespace OwnedRoot

variable {root : OwnedRoot} {path name : String}

/-! ## Names and paths -/

/-- A relative path is found under no name but the one that it is mounted at. -/
theorem eq_mounted_of_relativeName {relative : String}
    (h : root.relativeName name = some relative) :
    name = root.mounted relative := by
  unfold relativeName at h
  unfold mounted
  split_ifs at h ⊢ with hmount
  · exact Option.some_inj.1 h
  · obtain ⟨rest, hrest, rfl⟩ := Option.map_eq_some_iff.1 h
    have happend := List.isPrefixOf?_eq_some_iff_append_eq.1 hrest
    rw [← String.toList_inj, ← happend, String.toList_append (t := String.ofList rest),
      String.toList_ofList]

theorem mounted_injective (root : OwnedRoot) : Function.Injective root.mounted := fun l r h => by
  have hname := root.relativeName_mounted l
  rw [h, relativeName_mounted] at hname
  exact (Option.some_inj.1 hname).symm

/-- The logical name of a path is that of the parts which it adds to the directory. -/
theorem logicalName_eq_some_iff : root.logicalName path = some name ↔
    ∃ below, below ≠ [] ∧ Path.parts path = Path.parts root.dir ++ below ∧
      name = root.mounted (Path.ofParts below) := by
  constructor
  · intro h
    have hsome : root.logicalName path ≠ none := by rw [h]; exact Option.some_ne_none name
    obtain ⟨below, hne, hparts⟩ := not_not.1 (mt logicalName_eq_none_iff.2 hsome)
    rw [logicalName_of_parts_eq hne hparts] at h
    exact ⟨below, hne, hparts, (Option.some_inj.1 h).symm⟩
  · rintro ⟨below, hne, hparts, rfl⟩
    exact logicalName_of_parts_eq hne hparts

/-- A root has a file under a name when there is one where the relative path leads that is mounted
there. -/
theorem pathOf?_eq_some_iff {fs : FileSystem} : root.pathOf? fs name = some path ↔
    ∃ relative, name = root.mounted relative ∧ path = Path.join root.dir relative ∧
      fs.isFile path = true := by
  unfold pathOf?
  constructor
  · intro h
    split at h
    · cases h
    · rename_i relative hrelative
      simp only [Option.ite_none_right_eq_some, Option.some_inj] at h
      obtain ⟨hfile, rfl⟩ := h
      exact ⟨relative, eq_mounted_of_relativeName hrelative, rfl, hfile⟩
  · rintro ⟨relative, rfl, rfl, hfile⟩
    simp only [relativeName_mounted, if_pos hfile]

/-! ## Served names -/

/-- What is at the path is served under the name as it should be: it is inside the directory, and
the name is its own. -/
structure Serves (root : OwnedRoot) (path name : String) : Prop where
  below : Path.IsBelow root.dir path
  named : root.logicalName path = some name

/-- Where a name leads inside, it is the logical name of what is there when it spells out what it
adds. -/
theorem logicalName_join_iff {relative : String}
    (h : Path.IsBelow root.dir (Path.join root.dir relative)) :
    root.logicalName (Path.join root.dir relative) = some (root.mounted relative) ↔
      Path.SpellsOut root.dir relative := by
  rw [logicalName_eq_some_iff, ← Path.exists_below_iff_spellsOut h]
  simp only [root.mounted_injective.eq_iff]

/-- A name under which a root has a file is that of a relative path, which is joined to the
directory.  The file is served as it should be if and only if it is inside the directory and the
relative path spells out what it adds.

The file is inside the directory unless the relative path goes up or is absolute.  When it is
inside, there is exactly one relative path to the same place that is made of names alone, and under
names alone a file is always served as it should be. -/
theorem serves_iff {fs : FileSystem} (h : root.pathOf? fs name = some path) :
    ∃ relative, name = root.mounted relative ∧ path = Path.join root.dir relative ∧
      (root.Serves path name ↔ Path.IsBelow root.dir path ∧ Path.SpellsOut root.dir relative) ∧
      (Path.isAbsolute relative = false → ".." ∉ Text.split '/' relative →
        Path.IsBelow root.dir path) ∧
      (Path.IsBelow root.dir path → ∃! names : List String, names ≠ [] ∧
        (∀ n ∈ names, Path.IsNormal n) ∧
        Path.resolved (Path.join root.dir ("/".intercalate names)) = Path.resolved path) ∧
      ∀ names : List String, names ≠ [] → (∀ n ∈ names, Path.IsNormal n) →
        relative = "/".intercalate names → root.Serves path name := by
  obtain ⟨relative, rfl, rfl, hfile⟩ := pathOf?_eq_some_iff.1 h
  refine ⟨relative, rfl, rfl, ⟨?_, ?_⟩, fun habsolute hup => ?_, Path.existsUnique_names, ?_⟩
  · rintro ⟨hbelow, hnamed⟩
    exact ⟨hbelow, (logicalName_join_iff hbelow).1 hnamed⟩
  · rintro ⟨hbelow, hspells⟩
    exact ⟨hbelow, (logicalName_join_iff hbelow).2 hspells⟩
  · exact FileSystem.isBelow_of_isFile habsolute hup hfile
  · rintro names hne hnames rfl
    have hparts := Path.parts_join hne hnames root.dir
    exact ⟨⟨names, hne, Path.resolved_of_parts_eq hparts⟩,
      (returns_of_parts_eq hne hparts).logicalName_eq⟩

/-! ## Names in imports -/

/-- What stands between the slashes of a relative path also does in the name that it is mounted
at. -/
theorem split_mounted_subset (root : OwnedRoot) (relative : String) :
    Text.split '/' relative ⊆ Text.split '/' (root.mounted relative) := by
  unfold mounted
  split_ifs with hmount
  · exact List.Subset.refl _
  · have hlist : root.mount ++ "/" ++ relative =
        String.ofList (root.mount.toList ++ '/' :: relative.toList) := by
      rw [← String.toList_inj]
      simp
    rw [hlist, Text.split_ofList_append_cons, String.ofList_toList, String.ofList_toList]
    exact List.subset_append_right _ _

/-- Under a name from an import a root has only what stands at names below its directory. -/
theorem exists_names_of_isImport {fs : FileSystem} (himport : Proto.IsImport name)
    (h : root.pathOf? fs name = some path) : ∃ names : List String, names ≠ [] ∧
      Path.parts path = Path.parts root.dir ++ names.map .named ∧
      name = root.mounted ("/".intercalate names) := by
  obtain ⟨relative, rfl, rfl, -⟩ := pathOf?_eq_some_iff.1 h
  have hne := Text.split_ne_nil '/' relative
  have hnames : ∀ n ∈ Text.split '/' relative, Path.IsNormal n := fun n hn =>
    himport.isNormal n (root.split_mounted_subset relative hn)
  have hrelative : "/".intercalate (Text.split '/' relative) = relative :=
    Text.intercalate_split rfl relative
  have hparts := Path.parts_join hne hnames root.dir
  rw [hrelative] at hparts
  exact ⟨Text.split '/' relative, hne, hparts, by rw [hrelative]⟩

/-- An owned root serves its own files only, and each of them under one name, whatever stands in an
import.  When it has a file under a text from an import, the file is inside the directory and the
text is its logical name.  No other text from an import leads to the same place.  And when a path
leads there from the directory by names alone, as the paths do that are found there, it has the same
logical name. -/
theorem serves_imports (root : OwnedRoot) {fs : FileSystem} {name path : String}
    (himport : Proto.IsImport name) (h : root.pathOf? fs name = some path) :
    root.Serves path name ∧
      (∀ (fs' : FileSystem) (name' path' : String), Proto.IsImport name' →
        root.pathOf? fs' name' = some path' →
        Path.resolved path' = Path.resolved path → name' = name) ∧
      ∀ (path' : String) (names : List String),
        Path.parts path' = Path.parts root.dir ++ names.map .named →
        Path.resolved path' = Path.resolved path → root.logicalName path' = some name := by
  obtain ⟨names, hne, hparts, rfl⟩ := exists_names_of_isImport himport h
  refine ⟨⟨⟨names, hne, Path.resolved_of_parts_eq hparts⟩,
    (returns_of_parts_eq hne hparts).logicalName_eq⟩,
    fun fs' name' path' himport' h' heq => ?_, fun path' names' hparts' heq => ?_⟩
  · obtain ⟨names', -, hparts', rfl⟩ := exists_names_of_isImport himport' h'
    rw [Path.names_eq_of_resolved_eq hparts hparts' heq]
  · obtain rfl := Path.names_eq_of_resolved_eq hparts hparts' heq
    exact (returns_of_parts_eq hne hparts').logicalName_eq

/-- A directory with a schema file and another directory in it, and a schema file beside it. -/
def besideSecret : FileSystem where
  tree := .dir
    [("own", .dir [("b.proto", .file .empty), ("x", .dir [])]), ("secret.proto", .file .empty)]
  workingDir := []

/-- An import of a file that is mounted. -/
theorem serves_mountedFile :
    let root : OwnedRoot := { dir := "./own", mount := "m" }
    Proto.IsImport "m/b.proto" ∧ root.pathOf? besideSecret "m/b.proto" = some "./own/b.proto" ∧
      root.Serves "./own/b.proto" "m/b.proto" := by
  intro root
  have hread : ((Proto.FileDescriptor.parse? "" "import \"m/b.proto\";").map fun f =>
      f.dependencies.map (·.path)) = some ["m/b.proto"] := by decide +kernel
  obtain ⟨f, hparse, hpaths⟩ := Option.map_eq_some_iff.1 hread
  have himport : Proto.IsImport "m/b.proto" := ⟨_, _, f, hparse, hpaths ▸ List.mem_singleton_self _⟩
  have hopen : root.pathOf? besideSecret "m/b.proto" = some "./own/b.proto" := by decide +kernel
  exact ⟨himport, hopen, (serves_imports root himport hopen).1⟩

/-- Names that stand in no import can lead out of the directory, or to a file that has another
name. -/
example : let root : OwnedRoot := { dir := "own", mount := "" }
    root.pathOf? besideSecret "../secret.proto" = some "own/../secret.proto" ∧
      root.pathOf? besideSecret "./b.proto" = some "own/./b.proto" ∧
      root.logicalName "own/./b.proto" = some "b.proto" := by
  decide +kernel

end OwnedRoot
end SchemaPage
