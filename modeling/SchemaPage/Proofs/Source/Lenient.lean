import SchemaPage.Proofs.Source.Kept
import SchemaPage.Proofs.Source.Seen

/-!
# Loading where imports may be missing

What can be loaded with all its imports can be loaded also where imports may be missing, and the
files are the same: in both modes they are those that the owned files lead to.  Only the names under
which the owned files are asked for must be the same.  Where no import may be missing these are
given by the first root above a file, and not by the root below which the file was found.

* `Sources.lenient`: the same places, where imports may be missing.
* `Sources.NamesFirst`: the first root above an owned file gives it the name under which it was
  found.
* `Graph.exists_load_lenient`: loading succeeds again.
* `Sources.Pairs`, `Graph.forall₂_files_of_load`: each file, and what has become of it by linking.
* `Graph.map_files_of_load`: the files have the same paths, and the same of them are owned.
-/

namespace SchemaPage

open Proto

namespace Sources

/-- The same places, where imports may be missing. -/
def lenient (sources : Sources) : Sources := { sources with skipMissing := true }

/-- The first root above an owned file gives it the name under which it was found. -/
def NamesFirst (fs : FileSystem) (sources : Sources) : Prop :=
  ∀ o ∈ sources.ownedFiles fs, sources.roots.findSome? (·.logicalName o.path) = some o.name

instance (fs : FileSystem) (sources : Sources) : Decidable (sources.NamesFirst fs) :=
  inferInstanceAs (Decidable (∀ o ∈ sources.ownedFiles fs,
    sources.roots.findSome? (·.logicalName o.path) = some o.name))

variable {fs : FileSystem} {sources : Sources}

@[simp] theorem library_lenient : sources.lenient.library fs = sources.library fs := rfl

@[simp] theorem ownedFiles_lenient : sources.lenient.ownedFiles fs = sources.ownedFiles fs := rfl

@[simp] theorem skipMissing_lenient : sources.lenient.skipMissing = true := rfl

/-- The same names are asked for. -/
theorem asks_lenient_iff (hstrict : sources.skipMissing = false) (hnames : sources.NamesFirst fs)
    {name : String} : sources.lenient.Asks fs name ↔ sources.Asks fs name := by
  unfold Asks
  refine exists_congr fun o => and_congr_right fun ho => ?_
  rw [startName_of_tolerant skipMissing_lenient, startName_of_strict hstrict, hnames o ho]
  rfl

section Pool

variable {pool : List Compiled}
  (hpool : Compiler.Compiles (sources.library fs) sources.roots
    ((sources.ownedFiles fs).map (·.path)) pool) (hnames : sources.NamesFirst fs)

include hpool hnames

/-- An owned file is in the pool under its name, read from its path. -/
theorem exists_compiled_of_owned {o : OwnedFile} (ho : o ∈ sources.ownedFiles fs) :
    ∃ c ∈ pool, c.name = o.name ∧ Compiler.isPath o.path c.path = true := by
  obtain ⟨name, hname, c, hc, hcname, hpath⟩ := hpool.opened o.path (List.mem_map_of_mem ho)
  obtain rfl : name = o.name := Option.some_inj.1 (hname.symm.trans (hnames o ho))
  exact ⟨c, hc, hcname, hpath⟩

/-- Whatever the owned names lead to is found. -/
theorem not_broken_of_reaches {n m : String} (hn : n ∈ ownedNames (sources.ownedFiles fs))
    (hreach : (sources.library fs).Reaches n m) (fault : Fault) :
    sources.library fs m ≠ .broken fault := by
  obtain ⟨o, ho, rfl⟩ := mem_ownedNames_iff.1 hn
  obtain ⟨c, hc, hname, -⟩ := exists_compiled_of_owned hpool hnames ho
  obtain ⟨e, he, rfl⟩ := Compiler.done_iff.1
    (hpool.built.done_of_reaches (Compiler.done_iff.2 ⟨c, hc, hname⟩) hreach)
  obtain ⟨f, names, hfound, -⟩ := hpool.built.resolves_of_mem he
  rw [hfound]
  exact nofun

end Pool

/-- The files are gathered. -/
theorem exists_descriptors_lenient (hstrict : sources.skipMissing = false)
    (hnames : sources.NamesFirst fs) {files : List FileDescriptor}
    (h : (SchemaPage.descriptors fs sources (sources.ownedFiles fs)).value = .ok files) :
    ∃ gathered, (SchemaPage.descriptors fs sources.lenient (sources.ownedFiles fs)).value =
      .ok gathered := by
  obtain ⟨pool, hpool, -⟩ := compiles_of_descriptors hstrict h
  have hnamed : (sources.library fs).Named := named_library
  obtain ⟨c, hc, -⟩ := Closure.gather_isOk hnamed
    (fun _ _ _ => mem_allImports) (nodup_ownedNames (sources.ownedFiles fs))
    fun n hn m hreach fault => not_broken_of_reaches hpool hnames hn hreach fault
  refine ⟨c.files, ?_⟩
  unfold SchemaPage.descriptors
  rw [if_pos skipMissing_lenient]
  unfold gathered
  rw [library_lenient, hc]

end Sources

/-- What is loaded with all its imports is loaded where imports may be missing. -/
theorem Graph.exists_load_lenient {fs : FileSystem} {sources : Sources} {g : Graph}
    (hstrict : sources.skipMissing = false) (hnames : sources.NamesFirst fs)
    (hload : (load fs sources).value = .ok g) : ∃ g', (load fs sources.lenient).value = .ok g' := by
  obtain ⟨hdirs, hfiles, -⟩ := load_eq_ok_iff.1 hload
  obtain ⟨gathered, hgathered⟩ := Sources.exists_descriptors_lenient hstrict hnames hfiles
  have hdescriptors : sources.lenient.descriptors fs = gathered := by
    unfold Sources.descriptors
    rw [Sources.ownedFiles_lenient, hgathered]
    rfl
  refine ⟨_, load_eq_ok_iff.2 ⟨hdirs, ?_, rfl⟩⟩
  rw [hdescriptors]
  exact hgathered

/-! ## The same files -/

/-- What is found under the name of a compiled file is gathered. -/
theorem Sources.mem_descriptors_lenient {fs : FileSystem} {sources : Sources} {pool : List Compiled}
    (hstrict : sources.skipMissing = false) (hnames : sources.NamesFirst fs)
    (hcompiled : (SchemaPage.descriptors fs sources (sources.ownedFiles fs)).value =
      .ok (pool.map (·.linked.file)))
    (hgathered : (SchemaPage.descriptors fs sources.lenient (sources.ownedFiles fs)).value =
      .ok (sources.lenient.descriptors fs)) {c : Compiled} (hc : c ∈ pool) {f : FileDescriptor}
    (hfound : sources.library fs c.name = .found c.path f) :
    f ∈ sources.lenient.descriptors fs := by
  obtain ⟨hasks, -⟩ := found_of_mem_descriptors hcompiled (List.mem_map_of_mem hc)
  obtain ⟨f', hf', -, hmakes⟩ := exists_mem_descriptors hgathered
    ((asks_lenient_iff hstrict hnames).2 hasks) hfound
  rwa [(makes_of_tolerant rfl).1 hmakes] at hf'

/-- A file of the one graph and what has become of it in the other, where a pool of compiled files
has linked it. -/
def Sources.Pairs (fs : FileSystem) (sources : Sources) (pool : List Compiled)
    (file file' : SchemaFile) :
    Prop :=
  ∃ f, ∃ c ∈ pool, sources.library fs c.name = .found c.path f ∧
    f ∈ sources.lenient.descriptors fs ∧
    file = schemaFile (ownedNames (sources.ownedFiles fs)) f ∧
    file' = schemaFile (ownedNames (sources.ownedFiles fs)) c.linked.file

namespace Graph

variable {fs : FileSystem} {sources : Sources} {g g' : Graph} {pool : List Compiled}

/-- The files that are loaded correspond, path by path. -/
theorem forall₂_files_of_load (hstrict : sources.skipMissing = false)
    (hnames : sources.NamesFirst fs)
    (hload : (load fs sources).value = .ok g) (hlenient : (load fs sources.lenient).value = .ok g')
    (hpool : Compiler.Compiles (sources.library fs) sources.roots
      ((sources.ownedFiles fs).map (·.path)) pool)
    (hfiles : sources.descriptors fs = pool.map (·.linked.file)) :
    List.Forall₂ (sources.Pairs fs pool) g'.files g.files := by
  obtain ⟨-, hdescriptors, rfl⟩ := load_eq_ok_iff.1 hload
  obtain ⟨-, hgathered, rfl⟩ := load_eq_ok_iff.1 hlenient
  have hnodup := Sources.nodup_names_of_descriptors hdescriptors
  have hnodup' := Sources.nodup_names_of_descriptors hgathered
  have hname : ∀ {c : Compiled} {f : FileDescriptor},
      sources.library fs c.name = .found c.path f → f.name = c.linked.file.name :=
    fun h => Sources.named_library h
  have hpath : ∀ file file', sources.Pairs fs pool file file' → file.path = file'.path := by
    rintro - - ⟨f, c, -, hfound, -, rfl, rfl⟩
    exact hname hfound
  -- both lists ascend by path, so it is enough that each file has its counterpart
  refine Order.forall₂_of_ascending hpath (Order.ascending_latest _ _) (Order.ascending_latest _ _)
    (fun file hfile => ?_) fun file' hfile' => ?_
  · obtain ⟨f, hf, rfl⟩ := (mem_files_ofDescriptors_iff hnodup').1 hfile
    obtain ⟨hasks, path, f', hfound, hmakes⟩ := Sources.found_of_mem_descriptors hgathered hf
    obtain rfl : f = f' := (Sources.makes_of_tolerant rfl).1 hmakes
    obtain ⟨f', hf', hname', -⟩ := Sources.exists_mem_descriptors hdescriptors
      ((Sources.asks_lenient_iff hstrict hnames).1 hasks) hfound
    rw [hfiles] at hf'
    obtain ⟨c, hc, rfl⟩ := List.mem_map.1 hf'
    obtain ⟨f', names, hfound', -⟩ := hpool.built.resolves_of_mem hc
    have hcname : c.name = f.name := hname'
    rw [hcname] at hfound'
    obtain ⟨rfl, rfl⟩ := Opening.found.inj (hfound.symm.trans hfound')
    refine ⟨_, (mem_files_ofDescriptors_iff hnodup).2
      ⟨c.linked.file, hfiles ▸ List.mem_map_of_mem hc, rfl⟩, f, c, hc, ?_, hf, rfl, rfl⟩
    rw [hcname]
    exact hfound
  · obtain ⟨f', hf', rfl⟩ := (mem_files_ofDescriptors_iff hnodup).1 hfile'
    rw [hfiles] at hf' hdescriptors
    obtain ⟨c, hc, rfl⟩ := List.mem_map.1 hf'
    obtain ⟨f, names, hfound, -⟩ := hpool.built.resolves_of_mem hc
    have hf := Sources.mem_descriptors_lenient hstrict hnames hdescriptors hgathered hc hfound
    exact ⟨_, (mem_files_ofDescriptors_iff hnodup').2 ⟨f, hf, rfl⟩, f, c, hc, hfound, hf, rfl, rfl⟩

/-- The files that are loaded have the same paths, and the same of them are owned. -/
theorem map_files_of_load (hstrict : sources.skipMissing = false) (hnames : sources.NamesFirst fs)
    (hload : (load fs sources).value = .ok g)
    (hlenient : (load fs sources.lenient).value = .ok g') :
    g'.files.map (fun file => (file.path, file.ownership)) =
      g.files.map fun file => (file.path, file.ownership) := by
  obtain ⟨-, hdescriptors, -⟩ := load_eq_ok_iff.1 hload
  obtain ⟨pool, hpool, hfiles⟩ := Sources.compiles_of_descriptors hstrict hdescriptors
  refine Outcome.map_eq_map_of_forall₂
    (forall₂_files_of_load hstrict hnames hload hlenient hpool hfiles) ?_
  rintro - - - - ⟨f, c, -, hfound, -, rfl, rfl⟩
  have hname : f.name = c.linked.file.name := Sources.named_library hfound
  unfold schemaFile SchemaFile.ofDescriptor
  simp only [hname]

end Graph

end SchemaPage
