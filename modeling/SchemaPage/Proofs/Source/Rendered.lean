import SchemaPage.Proofs.Page.Whole
import SchemaPage.Proofs.Schema.References
import SchemaPage.Proofs.Source.Load
import SchemaPage.Proofs.Source.Settled

/-!
# Pages of graphs that are loaded

The page of a loaded graph needs the types that its files write down.  Where imports may be missing
every well-formed name will do.  Where none may be missing every name has a meaning, and the only
types that are not declared in the graph are those that are folded back into map fields.

* `Proto.Settled.exists_declaration_iff`: the types that are declared.
* `Proto.Settled.resolves_iff`, `Graph.resolves_of_readable`: the type names that stand for
  something.
* `Graph.generate_isOk_iff_of_load`: when the page of a loaded graph is written to its end.
-/

namespace SchemaPage

open Proto

/-! ## The declarations of a graph -/

theorem paths_map_schemaFile (owned : List String) (files : List FileDescriptor) :
    (files.map (schemaFile owned)).map SchemaFile.path = files.map (·.name) := by
  rw [List.map_map]
  rfl

namespace Graph

/-- Descriptors with distinct names are the files of their graph. -/
theorem mem_files_ofDescriptors_iff {owned : List String} {files : List FileDescriptor}
    (h : (files.map (·.name)).Nodup) {file : SchemaFile} :
    file ∈ (ofDescriptors owned files).files ↔ ∃ f ∈ files, schemaFile owned f = file := by
  rw [← paths_map_schemaFile owned] at h
  exact (mem_files_ofFiles_iff h).trans List.mem_map

/-- A declaration of a graph of descriptors comes from one of them. -/
theorem exists_descriptor_of_mem {owned : List String} {files : List FileDescriptor}
    {d : Declaration} (h : d ∈ (ofDescriptors owned files).allDeclarations) :
    ∃ f ∈ files, d ∈ (schemaFile owned f).allDeclarations := by
  obtain ⟨file, hfile, hd⟩ := List.mem_flatMap.1 h
  obtain ⟨f, hf, rfl⟩ := List.mem_map.1 (Order.mem_of_mem_latest hfile)
  exact ⟨f, hf, hd⟩

theorem mem_allDeclarations_ofDescriptors {owned : List String} {files : List FileDescriptor}
    (h : (files.map (·.name)).Nodup) {f : FileDescriptor} (hf : f ∈ files) {d : Declaration}
    (hd : d ∈ (schemaFile owned f).allDeclarations) :
    d ∈ (ofDescriptors owned files).allDeclarations := by
  rw [← paths_map_schemaFile owned] at h
  exact (mem_allDeclarations_ofFiles_iff h).2 ⟨_, List.mem_map_of_mem hf, hd⟩

/-- A full name that is written with a leading dot stands for what is found under it. -/
theorem resolves_absolute_iff {g : Graph} {context : Declaration} {n : String}
    (hn : isDotted n = true) :
    g.Resolves context ("." ++ n) ↔ (g.lookup n).isSome ∨ g.tolerant = true := by
  have hscalar : Scalar.ofKeyword? ("." ++ n) = none := ofKeyword?_append_dot "" n
  rw [resolves_iff, hscalar, isTypeName_absolute hn, find?, absolute?_dot]
  simp

/-- Where nothing at all is an answer, what readable files write down stands for something. -/
theorem resolves_of_readable {owned : List String} {files : List FileDescriptor}
    (h : ∀ f ∈ files, f.isReadable = true) {options : PageOptions} {d : Declaration} {w : String}
    (hd : d ∈ (ofDescriptors owned files).allDeclarations) (hw : w ∈ d.references options) :
    ((ofDescriptors owned files).withTolerance true).Resolves d w := by
  obtain ⟨f, hf, hd⟩ := exists_descriptor_of_mem hd
  rcases FileDescriptor.mem_writtenTypes_of_mem_references hd hw with
    hw | ⟨-, m, hm, hentry, hlength⟩
  · rcases FileDescriptor.keyword_or_isWrittenType_of_isReadable (h f hf) hw with
      ⟨s, rfl⟩ | hwritten
    · exact resolves_keyword _ d s
    · exact resolves_iff.2 (Or.inr ⟨isTypeName_of_isWrittenType hwritten, Or.inr rfl⟩)
  · obtain ⟨-, hmessages, -, -⟩ := FileDescriptor.isReadable_iff.1 (h f hf)
    have htwo := (MessageDescriptor.isReadable_iff.1 (hmessages m hm)).2.2.2 hentry
    omega

end Graph

namespace Proto

/-- The full names of types that are folded back into map fields, as they are written down. -/
def foldedTypes (files : List FileDescriptor) : List String :=
  (files.flatMap FileDescriptor.entryTypes).map ("." ++ ·)

namespace Settled

variable {files : List FileDescriptor}

/-- A type is declared somewhere or folded back, and never both. -/
theorem perm_types (h : Settled files) : (files.flatMap FileDescriptor.typeNames).Perm
    (files.flatMap FileDescriptor.declaredTypes ++ files.flatMap FileDescriptor.entryTypes) := by
  refine (List.Perm.flatMap_left files fun f hf => ?_).trans
    (List.flatMap_append_perm files FileDescriptor.declaredTypes FileDescriptor.entryTypes).symm
  exact FileDescriptor.perm_typeNames fun m hm n hn =>
    h.named f hf n (List.mem_flatMap_of_mem hm hn)

/-- A type is a declaration of the graph exactly when it is not folded back. -/
theorem exists_declaration_iff (h : Settled files) (owned : List String) {n : String}
    (hn : n ∈ files.flatMap FileDescriptor.typeNames) :
    (∃ d ∈ (Graph.ofDescriptors owned files).allDeclarations, d.fullName = n) ↔
      n ∉ files.flatMap FileDescriptor.entryTypes := by
  constructor
  · rintro ⟨d, hd, rfl⟩ hentry
    obtain ⟨f, hf, hd⟩ := Graph.exists_descriptor_of_mem hd
    by_cases hkind : d.kind = .service
    · have hservice := SchemaFile.mem_allDeclarations_iff.1 hd
      rw [hkind] at hservice
      obtain ⟨s, hs, rfl⟩ := List.mem_map.1 hservice
      obtain ⟨⟨s, index⟩, hindex, rfl⟩ := List.mem_map.1 hs
      exact h.services f hf s (List.fst_mem_of_mem_zipIdx hindex) hn
    · have hdeclared : d.fullName ∈ files.flatMap FileDescriptor.declaredTypes :=
        List.mem_flatMap_of_mem hf (mem_declaredTypes_iff.2 ⟨d, hd, hkind, rfl⟩)
      exact (List.nodup_append.1 (h.perm_types.nodup h.types)).2.2 _ hdeclared _ hentry rfl
  · intro hentry
    have hdeclared := (List.mem_append.1 (h.perm_types.mem_iff.1 hn)).resolve_right hentry
    obtain ⟨f, hf, hdeclared⟩ := List.mem_flatMap.1 hdeclared
    obtain ⟨d, hd, -, hname⟩ := mem_declaredTypes_iff.1 hdeclared
    exact ⟨d, Graph.mem_allDeclarations_ofDescriptors h.distinct hf hd, hname⟩

/-- Among linked files a type name stands for something unless it is empty or the type is folded
back. -/
theorem resolves_iff (h : Settled files) {owned : List String} {options : PageOptions}
    {d : Declaration} {w : String}
    (hd : d ∈ (Graph.ofDescriptors owned files).allDeclarations) (hw : w ∈ d.references options) :
    ((Graph.ofDescriptors owned files).withTolerance false).Resolves d w ↔
      w ≠ "" ∧ w ∉ foldedTypes files := by
  have hempty : "" ∉ foldedTypes files := fun hmem => by
    obtain ⟨n, -, hn⟩ := List.mem_map.1 hmem
    exact absurd (String.append_eq_empty_iff.1 hn).1 (by decide)
  obtain ⟨f, hf, hfd⟩ := Graph.exists_descriptor_of_mem hd
  rcases FileDescriptor.mem_writtenTypes_of_mem_references hfd hw with hw | ⟨rfl, -⟩
  · rcases h.written f hf w hw with ⟨s, rfl⟩ | ⟨n, hn, rfl⟩
    · refine iff_of_true (Graph.resolves_keyword _ d s) ⟨?_, fun hmem => ?_⟩
      · cases s <;> decide
      · obtain ⟨n, -, hn⟩ := List.mem_map.1 hmem
        have hnone : Scalar.ofKeyword? s.keyword = none := hn ▸ ofKeyword?_append_dot "" n
        rw [Scalar.ofKeyword?_keyword] at hnone
        exact absurd hnone nofun
    · -- linking has left a dot in front of the name of a type, and only the folded types are in
      -- no graph
      have hne : "." ++ n ≠ "" := fun hnil =>
        absurd (String.append_eq_empty_iff.1 hnil).1 (by decide)
      have hfolded : "." ++ n ∈ foldedTypes files ↔
          n ∈ files.flatMap FileDescriptor.entryTypes := by
        unfold foldedTypes
        rw [List.mem_map]
        constructor
        · rintro ⟨m, hm, hdot⟩
          have heq : some m = some n := by rw [← absolute?_dot m, hdot, absolute?_dot]
          exact Option.some_inj.1 heq ▸ hm
        · exact fun hmem => ⟨n, hmem, rfl⟩
      rw [Graph.resolves_absolute_iff (h.dotted n hn), Graph.lookup_withTolerance, hfolded,
        ← h.exists_declaration_iff owned hn, Graph.tolerant_withTolerance]
      simp only [Bool.false_eq_true, or_false, ne_eq, hne, not_false_eq_true, true_and]
      exact Graph.lookup_isSome_iff
  · exact iff_of_false (Graph.not_resolves_empty _ d) fun hnot => hnot.1 rfl

end Settled

end Proto

/-! ## Pages -/

namespace Sources

variable {fs : FileSystem} {sources : Sources} {files : List FileDescriptor}

theorem readable_of_descriptors (htolerant : sources.skipMissing = true)
    (h : (SchemaPage.descriptors fs sources (sources.ownedFiles fs)).value = .ok files) :
    ∀ f ∈ files, f.isReadable = true := fun f hf => by
  obtain ⟨path, hfound⟩ := (gathers_of_descriptors htolerant h).found f hf
  exact isReadable_of_found hfound

theorem settled_of_descriptors (hstrict : sources.skipMissing = false)
    (h : (SchemaPage.descriptors fs sources (sources.ownedFiles fs)).value = .ok files) :
    Settled files := by
  obtain ⟨pool, hpool, rfl⟩ := compiles_of_descriptors hstrict h
  exact hpool.built.settled fun _ _ _ => isReadable_of_found

end Sources

/-- Into a sink that never refuses, the page of a loaded graph is written to its end exactly when
imports may be missing or it shows no type name that is empty or folded back into a map field. -/
theorem Graph.generate_isOk_iff_of_load {fs : FileSystem} {sources : Sources} {g : Graph}
    (hload : (load fs sources).value = .ok g) (options : PageOptions) {s : Sink}
    (hroom : s.room = none) (hflush : s.refusesFlush = false) :
    (Document.generate g options s).2 = .ok () ↔ sources.skipMissing = true ∨
      ∀ d ∈ Document.shown g options, ∀ w ∈ d.references options,
        w ≠ "" ∧ w ∉ foldedTypes (sources.descriptors fs) := by
  obtain ⟨-, hfiles, rfl⟩ := load_eq_ok_iff.1 hload
  rw [Document.generate_isOk_iff hroom hflush]
  cases hmode : sources.skipMissing with
  | true =>
    refine iff_of_true (fun d hd w hw => ?_) (Or.inl rfl)
    exact resolves_of_readable (Sources.readable_of_descriptors hmode hfiles)
      (Document.mem_allDeclarations_of_mem_shown hd) hw
  | false =>
    have hsettled := Sources.settled_of_descriptors hmode hfiles
    simp only [Bool.false_eq_true, false_or]
    refine forall₂_congr fun d hd => forall₂_congr fun w hw => ?_
    exact hsettled.resolves_iff (Document.mem_allDeclarations_of_mem_shown hd) hw

/-- A file with a message that has a map field, and a field of the type of its entries. -/
def entryTree : FileSystem :=
  let text := "message M \x7b map<string, int32> foo = 1; optional FooEntry one = 2; \x7d"
  { tree := .dir [("a.proto", .file text.toUTF8)], workingDir := [] }

/-- The files of the working directory, where no import may be missing. -/
def strictSources : Sources := { roots := [⟨".", ""⟩], includes := [], skipMissing := false }

/-- The page of a file that refers to the entries of a map stops there. -/
theorem Graph.generate_entryTree :
    ∃ g, (load entryTree strictSources).value = .ok g ∧ Sink.unlimited.room = none ∧
      Sink.unlimited.refusesFlush = false ∧
      (Document.generate g {} Sink.unlimited).2 ≠ .ok () := by
  have hshown : (load entryTree strictSources).value.toOption.any (fun g =>
      (Document.shown g {}).any fun d => (d.references {}).any fun w =>
        (foldedTypes (strictSources.descriptors entryTree)).contains w) = true := by
    decide +kernel
  obtain ⟨g, hload, hany⟩ := Outcome.exists_ok_of_any hshown
  refine ⟨g, hload, rfl, rfl, fun hok => ?_⟩
  rcases (generate_isOk_iff_of_load hload {} rfl rfl).1 hok with hmode | hnames
  · exact absurd hmode Bool.false_ne_true
  · obtain ⟨d, hd, hany⟩ := List.any_eq_true.1 hany
    obtain ⟨w, hw, hfolded⟩ := List.any_eq_true.1 hany
    exact (hnames d hd w hw).2 (List.contains_iff_mem.1 hfolded)

/-- The page of a loaded graph may stop before its end. -/
theorem Graph.exists_load_without_page :
    ¬ ∀ (fs : FileSystem) (sources : Sources) (g : Graph) (options : PageOptions) (s : Sink),
      (load fs sources).value = .ok g → s.room = none → s.refusesFlush = false →
        (Document.generate g options s).2 = .ok () := by
  intro h
  have hfails : (load entryTree strictSources).value.toOption.any (fun g =>
      (Document.draft g {}).failure.isSome) = true := by
    decide +kernel
  obtain ⟨g, hload, hsome⟩ := Outcome.exists_ok_of_any hfails
  have hnone := (Document.generate_eq_ok_iff rfl rfl).1
    (h entryTree strictSources g {} Sink.unlimited hload rfl rfl)
  rw [hnone] at hsome
  exact Bool.false_ne_true hsome

end SchemaPage
