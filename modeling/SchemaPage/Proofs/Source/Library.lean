import Mathlib.Logic.Relation
import SchemaPage.Proofs.Files.Locate
import SchemaPage.Proofs.Proto.Named
import SchemaPage.Proofs.Proto.WellKnown
import SchemaPage.Source.Library

/-!
# What is found under a name

A file that is found under a logical name has that name and is as it is read, wherever it is found.
A file leads to the files that it imports, these to the files that they import, and so on.

* `Library.Imports`, `Library.Reaches`: one step along imports, and any number of them.
* `Library.Named`: what is found under a name has that name.
* `Sources.named_library`, `Sources.isReadable_of_found`: the files that sources lead to.
* `Sources.mem_allImports`: whatever such a file imports is known beforehand.
-/

namespace SchemaPage

open Proto

/-! ## Imports -/

/-- What is written down as imports where something is found. -/
def Opening.dependencies : Opening → List Dependency
  | .found _ f => f.dependencies
  | .missing | .broken _ => []

theorem Opening.mem_dependencies_iff {opening : Opening} {d : Dependency} :
    d ∈ opening.dependencies ↔ ∃ path f, opening = .found path f ∧ d ∈ f.dependencies := by
  cases opening with
  | found path f =>
    exact ⟨fun h => ⟨path, f, rfl, h⟩, fun ⟨_, _, heq, h⟩ => (Opening.found.inj heq).2 ▸ h⟩
  | missing => exact ⟨nofun, nofun⟩
  | broken fault => exact ⟨nofun, nofun⟩

namespace Library

/-- The file with the name `a` imports the name `b`. -/
def Imports (library : Library) (a b : String) : Prop :=
  ∃ path f, library a = .found path f ∧ b ∈ f.dependencies.map (·.path)

theorem imports_iff {library : Library} {a b : String} :
    library.Imports a b ↔ ∃ d ∈ (library a).dependencies, d.path = b := by
  simp only [Imports, Opening.mem_dependencies_iff, List.mem_map]
  exact ⟨fun ⟨path, f, hfound, d, hd, hpath⟩ => ⟨d, ⟨path, f, hfound, hd⟩, hpath⟩,
    fun ⟨d, ⟨path, f, hfound, hd⟩, hpath⟩ => ⟨path, f, hfound, d, hd, hpath⟩⟩

instance (library : Library) (a b : String) : Decidable (library.Imports a b) :=
  decidable_of_iff _ imports_iff.symm

/-- The name `b` is met on the way from the name `a` along imports. -/
def Reaches (library : Library) : String → String → Prop := Relation.ReflTransGen library.Imports

/-- What is found under a name has that name. -/
def Named (library : Library) : Prop :=
  ∀ ⦃name path f⦄, library name = .found path f → f.name = name

theorem Reaches.refl {library : Library} (a : String) : library.Reaches a a :=
  Relation.ReflTransGen.refl

/-- What a name imports is reached first. -/
theorem Imports.reaches {library : Library} {a b c : String} (hab : library.Imports a b)
    (hbc : library.Reaches b c) : library.Reaches a c :=
  Relation.ReflTransGen.head hab hbc

/-- Names that hold with a name also what it imports hold with it all that it reaches. -/
theorem Reaches.closed {library : Library} {P : String → Prop}
    (hP : ∀ a b, P a → library.Imports a b → P b) {a b : String} (h : library.Reaches a b)
    (ha : P a) : P b := by
  induction h with
  | refl => exact ha
  | tail _ hbc ih => exact hP _ _ ih hbc

/-- What is found in several places is found in one of them. -/
theorem found_of_ofList {ls : List Library} {name : String} {path : Option String}
    {f : FileDescriptor} (h : ofList ls name = .found path f) :
    ∃ l ∈ ls, l name = .found path f := by
  induction ls with
  | nil => exact absurd h nofun
  | cons l ls ih =>
    unfold ofList orElse at h
    split at h
    · obtain ⟨l', hl', hfound⟩ := ih h
      exact ⟨l', List.mem_cons_of_mem l hl', hfound⟩
    · exact ⟨l, List.mem_cons_self, h⟩

end Library

/-! ## Files that are found -/

/-- What is found in a file has been read from its text. -/
theorem read_of_openAt {fs : FileSystem} {name place : String} {path : Option String}
    {f : FileDescriptor} (h : openAt fs name place = .found path f) :
    path = some place ∧ ∃ bytes text, fs.read place = .ok bytes ∧
      String.fromUTF8? bytes = some text ∧ FileDescriptor.parse? name text = some f := by
  unfold openAt at h
  split at h
  · exact absurd h nofun
  · exact absurd h nofun
  · rename_i bytes hread
    unfold readSchema at h
    split at h
    · exact absurd h nofun
    · rename_i text htext
      split at h
      · exact absurd h nofun
      · rename_i f' hparse
        obtain ⟨rfl, rfl⟩ := Opening.found.inj h
        exact ⟨rfl, bytes, text, hread, htext, hparse⟩

/-! ## Imports in a tree -/

/-- The imports of a file are those of its text, whatever its name. -/
theorem importsIn_of_parse? {bytes : ByteArray} {name text : String} {f : FileDescriptor}
    (htext : String.fromUTF8? bytes = some text) (h : FileDescriptor.parse? name text = some f) :
    importsIn bytes = f.dependencies.map (·.path) := by
  rw [FileDescriptor.parse?_eq] at h
  obtain ⟨f, hparse, rfl⟩ := Option.map_eq_some_iff.1 h
  have hread : readSchema "" "" bytes = .found (some "") f := by
    unfold readSchema
    rw [htext]
    simp only [hparse]
  unfold importsIn
  rw [hread]
  rfl

theorem importsOfEntries_eq (entries : List (String × FileTree)) :
    importsOfEntries entries = entries.flatMap fun entry => entry.2.imports := by
  induction entries with
  | nil => rfl
  | cons entry entries ih =>
    unfold importsOfEntries
    rw [ih, List.flatMap_cons]

namespace FileTree

theorem imports_subset_of_child? {t u : FileTree} {name : String} (h : t.child? name = some u) :
    u.imports ⊆ t.imports := by
  obtain ⟨entry, hfind, rfl⟩ := Option.map_eq_some_iff.1 h
  have hmem := List.mem_of_find?_eq_some hfind
  cases t with
  | file bytes => exact absurd hmem List.not_mem_nil
  | link target => exact absurd hmem List.not_mem_nil
  | dir entries =>
    intro n hn
    unfold imports
    rw [importsOfEntries_eq]
    exact List.mem_flatMap_of_mem hmem hn

/-- What is at a place of a tree has no other imports than the tree. -/
theorem imports_subset_of_descend {t u : FileTree} {names : List String}
    (h : t.descend names = some u) : u.imports ⊆ t.imports := by
  induction names generalizing t with
  | nil =>
    obtain rfl := Option.some_inj.1 h
    exact List.Subset.refl _
  | cons name names ih =>
    rw [descend_cons] at h
    obtain ⟨child, hchild, h⟩ := Option.bind_eq_some_iff.1 h
    exact List.Subset.trans (ih h) (imports_subset_of_child? hchild)

end FileTree

theorem imports_subset_of_read {fs : FileSystem} {path : String} {bytes : ByteArray}
    (h : fs.read path = .ok bytes) : importsIn bytes ⊆ fs.tree.imports := by
  unfold FileSystem.read at h
  split at h
  · rename_i bytes' hnode
    obtain rfl := Except.ok.inj h
    obtain ⟨names, -, hdescend⟩ := FileSystem.node?_eq_ok_iff.1 hnode
    have hfile : (FileTree.file bytes').imports = importsIn bytes' := rfl
    rw [← hfile]
    exact FileTree.imports_subset_of_descend hdescend
  · exact absurd h nofun
  · exact absurd h nofun

/-! ## What sources lead to -/

namespace Sources

variable {fs : FileSystem} {sources : Sources}

/-- A file that is found has been read at a place, or it is well known. -/
theorem openAt_or_wellKnown {name : String} {path : Option String} {f : FileDescriptor}
    (h : sources.library fs name = .found path f) :
    (∃ place, openAt fs name place = .found path f) ∨
      path = none ∧ WellKnown.file? name = some f := by
  obtain ⟨l, hl, hfound⟩ := Library.found_of_ofList h
  rcases List.mem_append.1 hl with hl | hl
  · rcases List.mem_append.1 hl with hl | hl
    · obtain ⟨root, -, rfl⟩ := List.mem_map.1 hl
      unfold OwnedRoot.library at hfound
      split at hfound
      · exact Or.inl ⟨_, hfound⟩
      · exact absurd hfound nofun
    · obtain ⟨dir, -, rfl⟩ := List.mem_map.1 hl
      exact Or.inl ⟨_, hfound⟩
  · obtain rfl := List.mem_singleton.1 hl
    unfold Library.wellKnown at hfound
    split at hfound
    · rename_i f' hfile
      obtain ⟨rfl, rfl⟩ := Opening.found.inj hfound
      exact Or.inr ⟨rfl, hfile⟩
    · exact absurd hfound nofun

/-- What sources have under a name has that name. -/
theorem named_library : (sources.library fs).Named := by
  intro name path f h
  rcases openAt_or_wellKnown h with ⟨place, hplace⟩ | ⟨-, hfile⟩
  · obtain ⟨-, bytes, text, -, -, hparse⟩ := read_of_openAt hplace
    exact FileDescriptor.name_of_parse? hparse
  · exact WellKnown.name_of_file? hfile

/-- What sources have under a name is as it is read. -/
theorem isReadable_of_found {name : String} {path : Option String} {f : FileDescriptor}
    (h : sources.library fs name = .found path f) : f.isReadable = true := by
  rcases openAt_or_wellKnown h with ⟨place, hplace⟩ | ⟨-, hfile⟩
  · obtain ⟨-, bytes, text, -, -, hparse⟩ := read_of_openAt hplace
    exact (FileDescriptor.isWritten_of_parse? hparse).isReadable
  · exact WellKnown.isReadable_of_mem (List.mem_of_find?_eq_some hfile)

/-- Whatever a file imports that sources lead to is known beforehand. -/
theorem mem_allImports {name : String} {path : Option String} {f : FileDescriptor}
    (h : sources.library fs name = .found path f) :
    f.dependencies.map (·.path) ⊆ allImports fs := by
  intro n hn
  rcases openAt_or_wellKnown h with ⟨place, hplace⟩ | ⟨-, hfile⟩
  · obtain ⟨-, bytes, text, hread, htext, hparse⟩ := read_of_openAt hplace
    refine List.mem_append_left _ (imports_subset_of_read hread ?_)
    rwa [importsIn_of_parse? htext hparse]
  · exact List.mem_append_right _
      (List.mem_flatMap_of_mem (List.mem_of_find?_eq_some hfile) hn)

end Sources

end SchemaPage
