import SchemaPage.Proofs.Order.Latest
import SchemaPage.Proofs.Source.Gather
import SchemaPage.Proofs.Source.Pool
import SchemaPage.Source.Load

/-!
# What is loaded

Loading succeeds when the owned roots are directories and the files that they lead to are gathered
or compiled; the graph is then made of these files, each of which is owned if its name is.

* `Sources.ownedFiles`, `Sources.descriptors`: what sources lead to.
* `ownedFiles_eq_ok_iff`: when the owned files are found.
* `Graph.ofDescriptors`: the graph of some descriptors.
* `Graph.load_eq_ok_iff`: when a graph is loaded, and which.
* `Sources.gathers_of_descriptors`, `Sources.compiles_of_descriptors`: its files.
-/

namespace SchemaPage

open Proto

/-! ## Owned files -/

theorem OwnedRoot.files?_eq_ok_iff {fs : FileSystem} {root : OwnedRoot} {files : List OwnedFile} :
    root.files? fs = .ok files ↔ fs.isDirectory root.dir = true ∧ files = root.files fs := by
  unfold OwnedRoot.files? FileSystem.isDirectory
  cases fs.node? root.dir with
  | error e => exact ⟨nofun, fun h => absurd h.1 nofun⟩
  | ok t =>
    cases ht : t.isDir with
    | false => simp [ht]
    | true =>
      simp only [ht, if_true, true_and]
      exact ⟨fun h => (Except.ok.inj h).symm, fun h => congrArg _ h.symm⟩

/-- The owned files are found when all roots are directories. -/
theorem ownedFiles_eq_ok_iff {fs : FileSystem} {roots : List OwnedRoot} {files : List OwnedFile} :
    (ownedFiles fs roots).value = .ok files ↔
      (∀ root ∈ roots, fs.isDirectory root.dir = true) ∧
        files = roots.flatMap (OwnedRoot.files fs) := by
  induction roots generalizing files with
  | nil => exact ⟨fun h => ⟨nofun, (Except.ok.inj h).symm⟩, fun h => congrArg _ h.2.symm⟩
  | cons root roots ih =>
    unfold ownedFiles
    rw [List.forall_mem_cons, List.flatMap_cons]
    cases hroot : root.files? fs with
    | error e =>
      refine ⟨nofun, fun h => ?_⟩
      have hok := OwnedRoot.files?_eq_ok_iff.2 ⟨h.1.1, rfl⟩
      exact absurd (hroot.symm.trans hok) nofun
    | ok own =>
      obtain ⟨hdir, rfl⟩ := OwnedRoot.files?_eq_ok_iff.1 hroot
      simp only [Outcome.map_eq_ok_iff, ih]
      constructor
      · rintro ⟨rest, ⟨hdirs, rfl⟩, rfl⟩
        exact ⟨⟨hdir, hdirs⟩, rfl⟩
      · rintro ⟨⟨-, hdirs⟩, rfl⟩
        exact ⟨_, ⟨hdirs, rfl⟩, rfl⟩

theorem mem_ownedNames_iff {files : List OwnedFile} {name : String} :
    name ∈ ownedNames files ↔ ∃ f ∈ files, f.name = name := by
  unfold ownedNames
  rw [← List.mem_map]
  exact ⟨Order.mem_of_mem_latest, Order.mem_latest_of_injective fun _ _ h => h⟩

theorem nodup_ownedNames (files : List OwnedFile) : (ownedNames files).Nodup :=
  (Order.ascending_latest id _).nodup

/-! ## The files of a graph -/

/-- The graph of some descriptors, of which those with owned names are owned. -/
def Graph.ofDescriptors (owned : List String) (files : List FileDescriptor) : Graph :=
  ofFiles (files.map (schemaFile owned))

namespace Sources

variable (fs : FileSystem) (sources : Sources)

/-- The schema files below the owned roots. -/
def ownedFiles : List OwnedFile := sources.roots.flatMap (OwnedRoot.files fs)

/-- The descriptors that the sources lead to; none when nothing is loaded. -/
def descriptors : List FileDescriptor :=
  (SchemaPage.descriptors fs sources (sources.ownedFiles fs)).value.toOption.getD []

end Sources

/-- When a graph is loaded, and which. -/
theorem Graph.load_eq_ok_iff {fs : FileSystem} {sources : Sources} {g : Graph} :
    (load fs sources).value = .ok g ↔
      (∀ root ∈ sources.roots, fs.isDirectory root.dir = true) ∧
      (SchemaPage.descriptors fs sources (sources.ownedFiles fs)).value =
        .ok (sources.descriptors fs) ∧
      g = (ofDescriptors (ownedNames (sources.ownedFiles fs))
        (sources.descriptors fs)).withTolerance sources.skipMissing := by
  unfold load
  cases howned : (SchemaPage.ownedFiles fs sources.roots).value with
  | error e =>
    simp only [howned]
    refine ⟨nofun, fun h => ?_⟩
    have hok := ownedFiles_eq_ok_iff.2 ⟨h.1, rfl⟩
    exact absurd (howned.symm.trans hok) nofun
  | ok owned =>
    obtain ⟨hdirs, howned'⟩ := ownedFiles_eq_ok_iff.1 howned
    obtain rfl : owned = sources.ownedFiles fs := howned'
    simp only [howned]
    unfold Sources.descriptors
    cases hfound : (SchemaPage.descriptors fs sources (sources.ownedFiles fs)).value with
    | error e =>
      simp only
      exact ⟨nofun, fun h => absurd h.2.1 nofun⟩
    | ok files =>
      simp only
      exact ⟨fun h => ⟨hdirs, rfl, (Except.ok.inj h).symm⟩, fun h => congrArg _ h.2.2.symm⟩

namespace Sources

variable {fs : FileSystem} {sources : Sources}

/-- Where imports may be missing, the files that the owned names lead to are gathered. -/
theorem gathers_of_descriptors (htolerant : sources.skipMissing = true)
    {files : List FileDescriptor}
    (h : (SchemaPage.descriptors fs sources (sources.ownedFiles fs)).value = .ok files) :
    Closure.Gathers (sources.library fs) (ownedNames (sources.ownedFiles fs)) files := by
  unfold SchemaPage.descriptors at h
  rw [if_pos htolerant] at h
  unfold gathered at h
  split at h
  · rename_i c hc
    obtain rfl := Except.ok.inj h
    exact Closure.gathers_of_gather named_library (fun _ _ _ => mem_allImports)
      (nodup_ownedNames _) hc
  · exact absurd h nofun

/-- Where no import may be missing, the files that the owned paths lead to are compiled. -/
theorem compiles_of_descriptors (hstrict : sources.skipMissing = false)
    {files : List FileDescriptor}
    (h : (SchemaPage.descriptors fs sources (sources.ownedFiles fs)).value = .ok files) :
    ∃ pool, Compiler.Compiles (sources.library fs) sources.roots
      ((sources.ownedFiles fs).map (·.path)) pool ∧ files = pool.map (·.linked.file) := by
  have hfalse : ¬sources.skipMissing = true := by rw [hstrict]; exact Bool.false_ne_true
  unfold SchemaPage.descriptors at h
  rw [if_neg hfalse] at h
  have hcompile : Compiler.compile (sources.library fs) sources.roots (allImports fs)
      ((sources.ownedFiles fs).map (·.path)) = .ok files := by
    unfold compiled at h
    simp only at h
    cases hc : Compiler.compile (sources.library fs) sources.roots (allImports fs)
      ((sources.ownedFiles fs).map (·.path)) with
    | error e =>
      rw [hc] at h
      exact absurd h nofun
    | ok files' =>
      rw [hc] at h
      exact congrArg _ (Except.ok.inj h)
  exact Compiler.compiles_of_compile named_library hcompile

end Sources

end SchemaPage
