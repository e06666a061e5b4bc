import Mathlib.Data.List.Nodup
import SchemaPage.Catalog
import SchemaPage.Graph.Resolve
import SchemaPage.Proofs.Graph.Index

/-!
# What type names mean

A declaration that a type name means is a declaration of a file of the graph, and a search by full
name finds the last declaration with the name.

* `Graph.lookup_ofFiles`: what a search by full name finds.
* `Graph.mem_of_lookup`, `Graph.mem_of_resolve`: nothing else is ever meant.
* `Graph.Resolves`, `Graph.resolves_iff`: when a type name stands for something.
* `Graph.mem_candidates_iff`: the declarations that a listing draws on.
-/

namespace SchemaPage

theorem Kind.mem_all (k : Kind) : k ∈ all := by cases k <;> decide

namespace SchemaFile

/-- The declarations of a file are those of some kind. -/
theorem mem_allDeclarations_iff {file : SchemaFile} {d : Declaration} :
    d ∈ file.allDeclarations ↔ d ∈ file.declarations d.kind := by
  unfold allDeclarations
  rw [List.mem_flatMap]
  constructor
  · rintro ⟨k, -, h⟩
    rwa [kind_of_mem_declarations h]
  · intro h
    exact ⟨d.kind, Kind.mem_all _, h⟩

theorem file_of_mem_allDeclarations {file : SchemaFile} {d : Declaration}
    (h : d ∈ file.allDeclarations) : d.file = file :=
  file_of_mem_declarations (mem_allDeclarations_iff.1 h)

end SchemaFile

namespace Graph

/-- The declarations of all files, in file order and then source order. -/
def allDeclarations (g : Graph) : List Declaration := g.files.flatMap SchemaFile.allDeclarations

/-- A declaration of a graph stands in its file. -/
theorem mem_allDeclarations_iff {g : Graph} {d : Declaration} :
    d ∈ g.allDeclarations ↔ d.file ∈ g.files ∧ d ∈ d.file.declarations d.kind := by
  unfold allDeclarations
  rw [List.mem_flatMap]
  constructor
  · rintro ⟨file, hfile, h⟩
    obtain rfl := SchemaFile.file_of_mem_allDeclarations h
    exact ⟨hfile, SchemaFile.mem_allDeclarations_iff.1 h⟩
  · rintro ⟨hfile, h⟩
    exact ⟨d.file, hfile, SchemaFile.mem_allDeclarations_iff.2 h⟩

/-- Of files with different paths all are kept. -/
theorem mem_files_ofFiles_iff {files : List SchemaFile} (h : (files.map SchemaFile.path).Nodup)
    {file : SchemaFile} : file ∈ (ofFiles files).files ↔ file ∈ files :=
  ⟨Order.mem_of_mem_latest, fun hmem => Order.mem_latest_of_injective
    (fun _ hother hpath => List.inj_on_of_nodup_map h hother hmem hpath) hmem⟩

theorem mem_allDeclarations_ofFiles_iff {files : List SchemaFile}
    (h : (files.map SchemaFile.path).Nodup) {d : Declaration} :
    d ∈ (ofFiles files).allDeclarations ↔ ∃ file ∈ files, d ∈ file.allDeclarations := by
  unfold allDeclarations
  rw [List.mem_flatMap]
  exact exists_congr fun file => and_congr_left fun _ => mem_files_ofFiles_iff h

/-- A search by full name finds the last declaration with the name. -/
theorem lookup_ofFiles (files : List SchemaFile) (name : String) :
    (ofFiles files).lookup name =
      (ofFiles files).allDeclarations.reverse.find? (·.fullName == name) := by
  unfold allDeclarations
  rw [lookup_eq_find?, ← fst_places, ← List.map_reverse, List.find?_map]
  rfl

/-- A search by full name finds a declaration of the graph. -/
theorem mem_of_lookup {files : List SchemaFile} {name : String} {d : Declaration}
    (h : (ofFiles files).lookup name = some d) : d ∈ (ofFiles files).allDeclarations := by
  rw [lookup_ofFiles] at h
  exact List.mem_reverse.1 (List.mem_of_find?_eq_some h)

/-- A search by full name finds something when a declaration has the name. -/
theorem lookup_isSome_iff {files : List SchemaFile} {name : String} :
    ((ofFiles files).lookup name).isSome ↔
      ∃ d ∈ (ofFiles files).allDeclarations, d.fullName = name := by
  rw [lookup_ofFiles, List.find?_isSome]
  exact exists_congr fun d => and_congr List.mem_reverse beq_iff_eq

theorem mem_of_find? {files : List SchemaFile} {context d : Declaration} {typeName : String}
    (h : (ofFiles files).find? context typeName = some d) :
    d ∈ (ofFiles files).allDeclarations := by
  unfold find? at h
  split at h
  · exact mem_of_lookup h
  · obtain ⟨scope, -, h⟩ := List.exists_of_findSome?_eq_some h
    exact mem_of_lookup h

/-- A type name means a declaration only when the search finds it. -/
theorem find?_of_resolve {g : Graph} {context d : Declaration} {typeName : String}
    (h : g.resolve context typeName = .ok (some (.declared d))) :
    g.find? context typeName = some d := by
  unfold resolve at h
  split at h
  · simp at h
  · split at h
    · split at h
      · rename_i e he
        rw [he, ← ResolvedType.declared.inj (Option.some_inj.1 (Except.ok.inj h))]
      · split at h <;> simp at h
    · simp at h

/-- What a type name means is a declaration of the graph. -/
theorem mem_of_resolve {files : List SchemaFile} {tolerant : Bool} {context d : Declaration}
    {typeName : String}
    (h : ((ofFiles files).withTolerance tolerant).resolve context typeName =
      .ok (some (.declared d))) : d ∈ (ofFiles files).allDeclarations := by
  have hfind := find?_of_resolve h
  rw [find?_withTolerance] at hfind
  exact mem_of_find? hfind

/-! ## Names that stand for something -/

/-- The type name stands for something when it is written inside `context`. -/
def Resolves (g : Graph) (context : Declaration) (typeName : String) : Prop :=
  ∃ resolved, g.resolve context typeName = .ok resolved

/-- What stands for something is a keyword, or a well-formed name for which a declaration is found
or nothing at all is an answer. -/
theorem resolves_iff {g : Graph} {context : Declaration} {w : String} :
    g.Resolves context w ↔ (Scalar.ofKeyword? w).isSome ∨
      isTypeName w = true ∧ ((g.find? context w).isSome ∨ g.tolerant = true) := by
  unfold Resolves resolve
  cases Scalar.ofKeyword? w with
  | some s => exact ⟨fun _ => Or.inl rfl, fun _ => ⟨_, rfl⟩⟩
  | none =>
    cases isTypeName w with
    | false => simp
    | true =>
      cases g.find? context w with
      | some d => simp
      | none => cases g.tolerant <;> simp

theorem resolves_keyword (g : Graph) (context : Declaration) (s : Scalar) :
    g.Resolves context s.keyword := by
  rw [resolves_iff, Scalar.ofKeyword?_keyword]
  exact Or.inl rfl

theorem not_resolves_empty (g : Graph) (context : Declaration) : ¬ g.Resolves context "" := by
  rw [resolves_iff, show Scalar.ofKeyword? "" = none by decide,
    show isTypeName "" = false by decide]
  simp

/-! ## Listings -/

/-- A listing draws on the declarations of the selected files. -/
theorem mem_candidates_iff {g : Graph} {kind : Kind} {selection : Selection} {d : Declaration} :
    d ∈ g.candidates kind selection ↔
      d ∈ g.allDeclarations ∧ d.kind = kind ∧ selection.includes d.file := by
  unfold candidates
  rw [List.mem_flatMap, mem_allDeclarations_iff]
  constructor
  · rintro ⟨file, hfile, h⟩
    obtain ⟨hmem, hincl⟩ := List.mem_filter.1 hfile
    obtain rfl := SchemaFile.kind_of_mem_declarations h
    obtain rfl := SchemaFile.file_of_mem_declarations h
    exact ⟨⟨hmem, h⟩, rfl, hincl⟩
  · rintro ⟨⟨hmem, h⟩, rfl, hincl⟩
    exact ⟨d.file, List.mem_filter.2 ⟨hmem, hincl⟩, h⟩

end Graph

end SchemaPage
