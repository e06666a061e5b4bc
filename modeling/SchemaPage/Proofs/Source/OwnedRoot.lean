import SchemaPage.Proofs.Files.Detour
import SchemaPage.Source.Library

/-!
# Logical names of owned files

An owned root gives names to paths, and it looks paths up under names.  It compares paths by their
parts to make a name, which is a text made of the parts that are left.  It works on the text of a
name to get back: the mount goes, and what is left is joined to the directory.

* `OwnedRoot.mounted`: the logical name of what has a relative path.
* `OwnedRoot.logicalName_eq_none_iff`: the paths without a logical name.
* `OwnedRoot.relativeName_eq_none_iff`: the names that lead nowhere below the directory.
* `OwnedRoot.Returns`: from a path to its logical name, and from there to a path with the same
  parts.
* `OwnedRoot.reopens`: what has a logical name is found again under it.
-/

namespace SchemaPage

namespace OwnedRoot

variable {root : OwnedRoot} {path name : String}

/-- The logical name of what has a path relative to the directory. -/
def mounted (root : OwnedRoot) (relative : String) : String :=
  if root.mount = "" then relative else root.mount ++ "/" ++ relative

/-! ## From paths to names -/

/-- The logical name of a path is made of the parts that come after those of the directory. -/
theorem logicalName_of_parts_eq {below : List PathPart} (hne : below ≠ [])
    (h : Path.parts path = Path.parts root.dir ++ below) :
    root.logicalName path = some (root.mounted (Path.ofParts below)) := by
  unfold logicalName
  rw [List.isPrefixOf?_eq_some_iff_append_eq.2 h.symm]
  obtain ⟨part, rest, rfl⟩ := List.exists_cons_of_ne_nil hne
  rfl

/-- A path has no logical name unless it properly extends the directory. -/
theorem logicalName_eq_none_iff : root.logicalName path = none ↔
    ¬ ∃ below, below ≠ [] ∧ Path.parts path = Path.parts root.dir ++ below := by
  constructor
  · rintro hnone ⟨below, hne, hparts⟩
    rw [logicalName_of_parts_eq hne hparts] at hnone
    cases hnone
  · intro hnot
    unfold logicalName
    split
    · rfl
    · rfl
    · rename_i below hnil hprefix
      exact absurd ⟨below, hnil, (List.isPrefixOf?_eq_some_iff_append_eq.1 hprefix).symm⟩ hnot

/-! ## From names to paths -/

theorem dropStart?_append (start text : String) : dropStart? start (start ++ text) = some text := by
  unfold dropStart?
  rw [List.isPrefixOf?_eq_some_iff_append_eq.2 (String.toList_append (s := start) (t := text)).symm,
    Option.map_some, String.ofList_toList]

theorem dropStart?_eq_none_iff {start text : String} :
    dropStart? start text = none ↔ ¬ start.toList <+: text.toList := by
  unfold dropStart?
  rw [Option.map_eq_none_iff, Option.eq_none_iff_forall_ne_some]
  simp only [ne_eq, List.isPrefixOf?_eq_some_iff_append_eq]
  rw [← not_exists]
  rfl

/-- Under a logical name the relative path is found again. -/
theorem relativeName_mounted (root : OwnedRoot) (relative : String) :
    root.relativeName (root.mounted relative) = some relative := by
  unfold relativeName mounted
  split_ifs
  · rfl
  · exact dropStart?_append (root.mount ++ "/") relative

/-- A name leads nowhere below the directory if it does not start with the mount and a slash. -/
theorem relativeName_eq_none_iff : root.relativeName name = none ↔
    root.mount ≠ "" ∧ ¬ (root.mount ++ "/").toList <+: name.toList := by
  unfold relativeName
  split_ifs with hmount
  · exact iff_of_false nofun fun h => h.1 hmount
  · rw [dropStart?_eq_none_iff, and_iff_right hmount]

/-! ## Back and forth -/

/-- The root has a logical name for the path, and under this name it looks at a path with the same
parts. -/
structure Returns (root : OwnedRoot) (path name relative : String) : Prop where
  logicalName_eq : root.logicalName path = some name
  relativeName_eq : root.relativeName name = some relative
  parts_eq : Path.parts (Path.join root.dir relative) = Path.parts path

theorem library_of_isFile {fs : FileSystem} {relative : String}
    (hname : root.relativeName name = some relative)
    (hfile : fs.isFile (Path.join root.dir relative) = true) :
    root.library fs name = openAt fs name (Path.join root.dir relative) := by
  unfold library pathOf?
  simp only [hname, if_pos hfile]

section Names

variable {names : List String}

theorem isNormal_of_parts_eq {parts : List PathPart}
    (h : Path.parts path = parts ++ names.map .named) :
    ∀ name ∈ names, Path.IsNormal name := by
  intro name hname
  have hmem : .named name ∈ Path.parts path := by
    rw [h]
    exact List.mem_append_right _ (List.mem_map_of_mem hname)
  exact Path.isNormal_of_mem_parts hmem

variable (hne : names ≠ []) (h : Path.parts path = Path.parts root.dir ++ names.map .named)

include hne h

/-- Names below the directory come back as they are. -/
theorem returns_of_parts_eq :
    root.Returns path (root.mounted ("/".intercalate names)) ("/".intercalate names) := by
  refine ⟨?_, root.relativeName_mounted _, ?_⟩
  · rw [logicalName_of_parts_eq (mt List.map_eq_nil_iff.1 hne) h, Path.ofParts_map_named]
  · rw [Path.parts_join hne (isNormal_of_parts_eq h), h]

/-- A path is read where the root looks under its logical name, unless this is too long to be looked
up. -/
theorem library_of_parts_eq {fs : FileSystem} (hfile : fs.isFile path = true)
    (hsize : (Path.join root.dir ("/".intercalate names)).utf8ByteSize ≤ FileSystem.maxPathSize) :
    fs.read (Path.join root.dir ("/".intercalate names)) = fs.read path ∧
      root.library fs (root.mounted ("/".intercalate names)) =
        openAt fs (root.mounted ("/".intercalate names))
          (Path.join root.dir ("/".intercalate names)) := by
  have hreturns := returns_of_parts_eq hne h
  have hlast := FileSystem.getLast?_steps_join hne (isNormal_of_parts_eq h) root.dir
  obtain ⟨hfile', hread⟩ :=
    FileSystem.isFile_of_parts_eq hfile hreturns.parts_eq.symm hlast hsize
  exact ⟨hread, library_of_isFile hreturns.relativeName_eq hfile'⟩

end Names

/-- A path below the directory has a logical name, and under this name the root finds what is at the
path.  When the path is written as names joined to the directory one by one, it is this path that is
read.  When it is another text with the same parts, the root writes it in its own way; this must not
be too long.

Only what properly extends the directory has a logical name, and only names under the mount lead
below the directory. -/
theorem reopens (root : OwnedRoot) :
    (∀ names : List String, names ≠ [] → (∀ name ∈ names, Path.IsNormal name) →
      ∃ name relative, root.Returns (names.foldl Path.join root.dir) name relative ∧
        ∀ fs : FileSystem, fs.isFile (names.foldl Path.join root.dir) = true →
          root.library fs name = openAt fs name (names.foldl Path.join root.dir)) ∧
    (∀ (path : String) (names : List String), names ≠ [] →
      Path.parts path = Path.parts root.dir ++ names.map .named →
      ∃ name relative, root.Returns path name relative ∧
        ∀ fs : FileSystem, fs.isFile path = true →
          (Path.join root.dir relative).utf8ByteSize ≤ FileSystem.maxPathSize →
          fs.read (Path.join root.dir relative) = fs.read path ∧
            root.library fs name = openAt fs name (Path.join root.dir relative)) ∧
    (∀ path : String, root.logicalName path = none ↔
      ¬ ∃ below, below ≠ [] ∧ Path.parts path = Path.parts root.dir ++ below) ∧
    ∀ name : String, root.relativeName name = none ↔
      root.mount ≠ "" ∧ ¬ (root.mount ++ "/").toList <+: name.toList := by
  refine ⟨fun names hne hnames => ?_,
    fun path names hne h => ?_, fun path => logicalName_eq_none_iff,
    fun name => relativeName_eq_none_iff⟩
  · have hjoin := Path.foldl_join hne hnames root.dir
    have hreturns : root.Returns (names.foldl Path.join root.dir) _ _ := returns_of_parts_eq hne (by
      rw [hjoin, Path.parts_join hne hnames])
    refine ⟨_, _, hreturns, fun fs hfile => ?_⟩
    rw [hjoin] at hfile ⊢
    exact library_of_isFile hreturns.relativeName_eq hfile
  · exact ⟨_, _, returns_of_parts_eq hne h, fun fs => library_of_parts_eq hne h⟩

/-- A directory that is written with a dot and slashes, and that is mounted at two names. -/
theorem reopens_below_mount :
    let root : OwnedRoot := { dir := "./src//", mount := "a/b" }
    let fs : FileSystem := { tree := .dir [("src", .dir [("x", .dir [("y.proto", .file .empty)])])]
                             workingDir := [] }
    fs.isFile "./src//x/y.proto" = true ∧ ∃ name relative,
      root.Returns "./src//x/y.proto" name relative ∧
        root.library fs name = openAt fs name "./src//x/y.proto" := by
  intro root fs
  have hfile : fs.isFile "./src//x/y.proto" = true := by decide
  have hnames : ∀ name ∈ ["x", "y.proto"], Path.IsNormal name := by
    intro name hname
    rcases List.mem_pair.1 hname with rfl | rfl <;> constructor <;> decide
  have hjoin : ["x", "y.proto"].foldl Path.join root.dir = "./src//x/y.proto" := by decide
  obtain ⟨name, relative, hreturns, hopens⟩ :=
    (reopens root).1 ["x", "y.proto"] (List.cons_ne_nil _ _) hnames
  rw [hjoin] at hreturns hopens
  exact ⟨hfile, name, relative, hreturns, hopens fs hfile⟩

/-- What only begins with the same text is neither below the directory nor under the mount. -/
example : let root : OwnedRoot := { dir := "src", mount := "a" }
    root.logicalName "src/./b//c.proto" = some "a/b/c.proto" ∧
      root.logicalName "srcs/c.proto" = none ∧
      root.relativeName "a/b/c.proto" = some "b/c.proto" ∧
      root.relativeName "ab/c.proto" = none := by
  decide

end OwnedRoot
end SchemaPage
