import SchemaPage.Proofs.Source.Rendered

/-!
# Owned files that are kept

The files below the owned roots are found by a walk, but they are read by their names.  A name that
several places have is answered by the first of them, and where no import may be missing a file goes
by the name that the first root above it gives to its path.  So an owned file can get lost, or
another file can take its place, and it is owned then like the one that is lost.

* `Sources.Asks`: the names that loading asks for.
* `Sources.found_of_mem_descriptors`, `Sources.exists_mem_descriptors`: the files of a graph are
  those that are found under these names.
* `OwnedFile.IsFoundAs`: what is found under the name of an owned file is that file.
* `OwnedFile.Becomes`: a file of the graph is made of an owned file.
* `Graph.becomes_iff_of_load`: which owned files the graph has, and which of its files are owned.
-/

namespace SchemaPage

open Proto

/-! ## The files that are asked for -/

namespace Sources

/-- The name under which an owned file is asked for. -/
def startName (sources : Sources) (o : OwnedFile) : Option String :=
  if sources.skipMissing then some o.name else sources.roots.findSome? (·.logicalName o.path)

/-- A name is met on the way from the owned files along imports. -/
def Asks (fs : FileSystem) (sources : Sources) (name : String) : Prop :=
  ∃ o ∈ sources.ownedFiles fs, ∃ start, sources.startName o = some start ∧
    (sources.library fs).Reaches start name

/-- What becomes of a descriptor when it is loaded: it stays, or it is linked. -/
def Makes (sources : Sources) (f f' : FileDescriptor) : Prop :=
  if sources.skipMissing then f' = f else ∃ names, f.Resolves names f'

variable {fs : FileSystem} {sources : Sources}

theorem makes_of_tolerant (h : sources.skipMissing = true) {f f' : FileDescriptor} :
    sources.Makes f f' ↔ f' = f := by
  unfold Makes
  rw [if_pos h]

theorem makes_of_strict (h : sources.skipMissing = false) {f f' : FileDescriptor} :
    sources.Makes f f' ↔ ∃ names, f.Resolves names f' := by
  unfold Makes
  rw [h, if_neg Bool.false_ne_true]

theorem startName_of_tolerant (h : sources.skipMissing = true) (o : OwnedFile) :
    sources.startName o = some o.name := if_pos h

theorem startName_of_strict (h : sources.skipMissing = false) (o : OwnedFile) :
    sources.startName o = sources.roots.findSome? (·.logicalName o.path) := by
  unfold startName
  rw [h, if_neg Bool.false_ne_true]

section Descriptors

variable {files : List FileDescriptor}
  (h : (SchemaPage.descriptors fs sources (sources.ownedFiles fs)).value = .ok files)

include h

/-- The files that are loaded have different names. -/
theorem nodup_names_of_descriptors : (files.map (·.name)).Nodup := by
  cases hmode : sources.skipMissing with
  | true => exact (gathers_of_descriptors hmode h).distinct
  | false => exact (settled_of_descriptors hmode h).distinct

/-- A file that is loaded is found under its name, and its name is asked for. -/
theorem found_of_mem_descriptors {f' : FileDescriptor} (hf' : f' ∈ files) :
    Asks fs sources f'.name ∧
      ∃ path f, sources.library fs f'.name = .found path f ∧ sources.Makes f f' := by
  cases hmode : sources.skipMissing with
  | true =>
    have hgathers := gathers_of_descriptors hmode h
    obtain ⟨path, hfound⟩ := hgathers.found f' hf'
    obtain ⟨n, hn, hreach⟩ := hgathers.reached f' hf'
    obtain ⟨o, ho, rfl⟩ := mem_ownedNames_iff.1 hn
    exact ⟨⟨o, ho, o.name, startName_of_tolerant hmode o, hreach⟩, path, f', hfound,
      (makes_of_tolerant hmode).2 rfl⟩
  | false =>
    obtain ⟨pool, hpool, rfl⟩ := compiles_of_descriptors hmode h
    obtain ⟨c, hc, rfl⟩ := List.mem_map.1 hf'
    obtain ⟨path, hpath, name, hname, hreach⟩ := hpool.reached c hc
    obtain ⟨o, ho, rfl⟩ := List.mem_map.1 hpath
    obtain ⟨f, names, hfound, hresolves, -⟩ := hpool.built.resolves_of_mem hc
    exact ⟨⟨o, ho, name, (startName_of_strict hmode o).trans hname, hreach⟩, c.path, f, hfound,
      (makes_of_strict hmode).2 ⟨names, hresolves⟩⟩

/-- What is found under a name that is asked for is loaded. -/
theorem exists_mem_descriptors {name : String} (hasks : Asks fs sources name)
    {path : Option String} {f : FileDescriptor} (hfound : sources.library fs name = .found path f) :
    ∃ f' ∈ files, f'.name = name ∧ sources.Makes f f' := by
  obtain ⟨o, ho, start, hstart, hreach⟩ := hasks
  cases hmode : sources.skipMissing with
  | true =>
    obtain rfl : o.name = start :=
      Option.some_inj.1 ((startName_of_tolerant hmode o).symm.trans hstart)
    have hmem := (gathers_of_descriptors hmode h).closed o.name
      (mem_ownedNames_iff.2 ⟨o, ho, rfl⟩) name hreach path f hfound
    exact ⟨f, hmem, named_library hfound, (makes_of_tolerant hmode).2 rfl⟩
  | false =>
    obtain ⟨pool, hpool, rfl⟩ := compiles_of_descriptors hmode h
    obtain ⟨name', hname', c, hc, hcname, -⟩ := hpool.opened o.path (List.mem_map_of_mem ho)
    obtain rfl : name' = start := Option.some_inj.1
      (hname'.symm.trans ((startName_of_strict hmode o).symm.trans hstart))
    have hdone := hpool.built.done_of_reaches (Compiler.done_iff.2 ⟨c, hc, hcname⟩) hreach
    obtain ⟨d, hd, rfl⟩ := Compiler.done_iff.1 hdone
    obtain ⟨names, hresolves⟩ := hpool.built.resolves_of_found hd hfound
    exact ⟨_, List.mem_map_of_mem hd, rfl, (makes_of_strict hmode).2 ⟨names, hresolves⟩⟩

end Descriptors

end Sources

/-! ## Owned files in the graph -/

namespace OwnedFile

variable (fs : FileSystem) (sources : Sources) (o : OwnedFile)

/-- What is found under the name of an owned file is that very file: it was read from the place to
which its own path leads. -/
def IsFoundAs (f : FileDescriptor) : Prop :=
  ∃ path, sources.library fs o.name = .found (some path) f ∧
    fs.locate path true = fs.locate o.path true

/-- The file of a graph is made of an owned file: it has its name, it is owned, and it declares what
that very file does. -/
structure Becomes (file : SchemaFile) : Prop where
  path : file.path = o.name
  owned : file.isOwned = true
  made : ∃ f f', o.IsFoundAs fs sources f ∧ sources.Makes f f' ∧ file = .ofDescriptor .owned f'

end OwnedFile

theorem FileSystem.read_congr {fs : FileSystem} {a b : String}
    (h : fs.locate a true = fs.locate b true) : fs.read a = fs.read b := by
  unfold read node?
  rw [h]

/-- What is found at a path under a name is what is read there. -/
theorem Sources.openAt_of_found {fs : FileSystem} {sources : Sources} {name path : String}
    {f : FileDescriptor} (h : sources.library fs name = .found (some path) f) :
    openAt fs name path = .found (some path) f := by
  rcases openAt_or_wellKnown h with ⟨place, hplace⟩ | ⟨hnone, -⟩
  · obtain rfl := Option.some_inj.1 (read_of_openAt hplace).1
    exact hplace
  · exact absurd hnone nofun

/-- A file that is found as itself has the descriptor that is read at its own path. -/
theorem OwnedFile.IsFoundAs.openAt {fs : FileSystem} {sources : Sources} {o : OwnedFile}
    {f : FileDescriptor} (h : o.IsFoundAs fs sources f) :
    SchemaPage.openAt fs o.name o.path = .found (some o.path) f := by
  obtain ⟨path, hfound, hplace⟩ := h
  obtain ⟨-, bytes, text, hread, htext, hparse⟩ := read_of_openAt (Sources.openAt_of_found hfound)
  rw [FileSystem.read_congr hplace] at hread
  unfold SchemaPage.openAt readSchema
  simp only [hread, htext, hparse]

theorem isOwned_schemaFile_iff {owned : List String} {f : FileDescriptor} :
    (schemaFile owned f).isOwned = true ↔ f.name ∈ owned := by
  unfold schemaFile SchemaFile.isOwned SchemaFile.ofDescriptor
  simp only
  by_cases hmem : f.name ∈ owned
  · rw [if_pos (List.contains_iff_mem.2 hmem)]
    exact iff_of_true rfl hmem
  · rw [if_neg fun h => hmem (List.contains_iff_mem.1 h)]
    exact iff_of_false Bool.false_ne_true hmem

theorem schemaFile_of_mem {owned : List String} {f : FileDescriptor} (h : f.name ∈ owned) :
    schemaFile owned f = .ofDescriptor .owned f := by
  unfold schemaFile
  rw [if_pos (List.contains_iff_mem.2 h)]

/-- A loaded graph has an owned file exactly when the name of the file leads to the file itself and
is asked for.  A file of the graph is owned exactly when an owned file has its name, and then it is
made of an owned file exactly when the name leads to such a file. -/
theorem Graph.becomes_iff_of_load {fs : FileSystem} {sources : Sources} {g : Graph}
    (hload : (load fs sources).value = .ok g) :
    (∀ o ∈ sources.ownedFiles fs, (∃ file ∈ g.files, o.Becomes fs sources file) ↔
      (∃ f, o.IsFoundAs fs sources f) ∧ sources.Asks fs o.name) ∧
    (∀ file ∈ g.files, file.isOwned = true ↔ ∃ o ∈ sources.ownedFiles fs, o.name = file.path) ∧
    ∀ file ∈ g.files, (∃ o ∈ sources.ownedFiles fs, o.Becomes fs sources file) ↔
      ∃ o ∈ sources.ownedFiles fs, o.name = file.path ∧ ∃ f, o.IsFoundAs fs sources f := by
  obtain ⟨-, hfiles, rfl⟩ := load_eq_ok_iff.1 hload
  have hnodup : (((sources.descriptors fs).map
      (schemaFile (ownedNames (sources.ownedFiles fs)))).map SchemaFile.path).Nodup := by
    rw [paths_map_schemaFile]
    exact Sources.nodup_names_of_descriptors hfiles
  have hmem : ∀ file, file ∈ ((ofDescriptors (ownedNames (sources.ownedFiles fs))
      (sources.descriptors fs)).withTolerance sources.skipMissing).files ↔
      ∃ f' ∈ sources.descriptors fs, schemaFile (ownedNames (sources.ownedFiles fs)) f' = file :=
    fun file => (mem_files_ofFiles_iff hnodup).trans List.mem_map
  -- a file of the graph with an owned name is owned, and it is made of what the name leads to
  have hbecomes : ∀ o ∈ sources.ownedFiles fs, ∀ f f', o.IsFoundAs fs sources f → f'.name = o.name →
      sources.Makes f f' →
        o.Becomes fs sources (schemaFile (ownedNames (sources.ownedFiles fs)) f') := by
    intro o ho f f' hfound hname hmakes
    have howned : f'.name ∈ ownedNames (sources.ownedFiles fs) :=
      mem_ownedNames_iff.2 ⟨o, ho, hname.symm⟩
    exact ⟨hname, isOwned_schemaFile_iff.2 howned, f, f', hfound, hmakes, schemaFile_of_mem howned⟩
  refine ⟨fun o ho => ⟨?_, ?_⟩, fun file hfile => ?_, fun file hfile => ⟨?_, ?_⟩⟩
  · rintro ⟨file, hfile, hbecomes⟩
    obtain ⟨f', hf', rfl⟩ := (hmem file).1 hfile
    obtain ⟨f, -, hfound, -⟩ := hbecomes.made
    have hname : f'.name = o.name := hbecomes.path
    exact ⟨⟨f, hfound⟩, hname ▸ (Sources.found_of_mem_descriptors hfiles hf').1⟩
  · rintro ⟨⟨f, path, hfound, hplace⟩, hasks⟩
    obtain ⟨f', hf', hname, hmakes⟩ := Sources.exists_mem_descriptors hfiles hasks hfound
    exact ⟨_, (hmem _).2 ⟨f', hf', rfl⟩, hbecomes o ho f f' ⟨path, hfound, hplace⟩ hname hmakes⟩
  · obtain ⟨f', hf', rfl⟩ := (hmem file).1 hfile
    exact isOwned_schemaFile_iff.trans mem_ownedNames_iff
  · rintro ⟨o, ho, hbecomes⟩
    obtain ⟨f, -, hfound, -⟩ := hbecomes.made
    exact ⟨o, ho, hbecomes.path.symm, f, hfound⟩
  · rintro ⟨o, ho, hname, f, path, hfound, hplace⟩
    obtain ⟨f', hf', rfl⟩ := (hmem file).1 hfile
    obtain ⟨-, path', f₀, hfound', hmakes⟩ := Sources.found_of_mem_descriptors hfiles hf'
    have hname : f'.name = o.name := hname.symm
    rw [hname] at hfound'
    obtain ⟨-, rfl⟩ := Opening.found.inj (hfound.symm.trans hfound')
    exact ⟨o, ho, hbecomes o ho f f' ⟨path, hfound, hplace⟩ hname hmakes⟩

/-! ## A file that is swapped -/

/-- Two directories with a file of one name, the first of which is a link to a file outside. -/
def linkTree : FileSystem :=
  { tree := .dir
      [("a", .dir [("x.proto", .link "../c.proto")]),
        ("b", .dir [("x.proto", .file "message B \x7b\x7d".toUTF8)]),
        ("c.proto", .file "message C \x7b\x7d".toUTF8)]
    workingDir := [] }

/-- The two directories, where imports may be missing. -/
def linkSources : Sources :=
  { roots := [⟨"a", ""⟩, ⟨"b", ""⟩], includes := [], skipMissing := true }

/-- The walk passes links by, so the second directory alone has an owned file. -/
theorem Sources.mem_ownedFiles_linkTree :
    (⟨"x.proto", "b/x.proto"⟩ : OwnedFile) ∈ linkSources.ownedFiles linkTree := by
  decide +kernel

/-- The path of what is found, if that is a file of the file system. -/
def Opening.path? : Opening → Option String
  | .found path _ => path
  | _ => none

/-- The name of that file leads to the link. -/
theorem OwnedFile.not_isFoundAs_linkTree (f : FileDescriptor) :
    ¬ IsFoundAs linkTree linkSources ⟨"x.proto", "b/x.proto"⟩ f := by
  rintro ⟨path, hfound, hplace⟩
  have hpath : (linkSources.library linkTree "x.proto").path? = some "a/x.proto" := by
    decide +kernel
  rw [hfound] at hpath
  obtain rfl : path = "a/x.proto" := Option.some_inj.1 hpath
  have hdiffer : (linkTree.locate "a/x.proto" true).toOption ≠
      (linkTree.locate "b/x.proto" true).toOption := by
    decide +kernel
  exact hdiffer (congrArg Except.toOption hplace)

/-- No file of the graph is made of the owned file below the second directory. -/
theorem Graph.not_becomes_linkTree :
    ∃ g, (load linkTree linkSources).value = .ok g ∧
      (⟨"x.proto", "b/x.proto"⟩ : OwnedFile) ∈ linkSources.ownedFiles linkTree ∧
      ¬ ∃ file ∈ g.files, OwnedFile.Becomes linkTree linkSources ⟨"x.proto", "b/x.proto"⟩ file := by
  have hloads : (load linkTree linkSources).value.toOption.any (fun _ => true) = true := by
    decide +kernel
  obtain ⟨g, hload, -⟩ := Outcome.exists_ok_of_any hloads
  refine ⟨g, hload, Sources.mem_ownedFiles_linkTree, fun hbecomes => ?_⟩
  obtain ⟨⟨f, hfound⟩, -⟩ :=
    ((becomes_iff_of_load hload).1 _ Sources.mem_ownedFiles_linkTree).1 hbecomes
  exact OwnedFile.not_isFoundAs_linkTree f hfound

/-- An owned file may be missing from a loaded graph, and a file may be owned in its place. -/
theorem Graph.exists_load_without_ownedFile :
    ¬ ∀ (fs : FileSystem) (sources : Sources) (g : Graph), (load fs sources).value = .ok g →
      (∀ o ∈ sources.ownedFiles fs, ∃ file ∈ g.files, o.Becomes fs sources file) ∧
      ∀ file ∈ g.files, file.isOwned = true → ∃ o ∈ sources.ownedFiles fs, o.name = file.path := by
  intro h
  have hloads : (load linkTree linkSources).value.toOption.any (fun _ => true) = true := by
    decide +kernel
  obtain ⟨g, hload, -⟩ := Outcome.exists_ok_of_any hloads
  obtain ⟨file, -, hbecomes⟩ := (h linkTree linkSources g hload).1 _ Sources.mem_ownedFiles_linkTree
  obtain ⟨f, -, hfound, -⟩ := hbecomes.made
  exact OwnedFile.not_isFoundAs_linkTree f hfound

end SchemaPage
