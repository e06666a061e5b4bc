import SchemaPage.Proofs.Files.Path
import SchemaPage.Proofs.Proto.Written

/-!
# The texts in imports

A file is imported by a path, and a schema file with any other text in an import is not read.  Such
a path is made of names: nothing in it goes up or stays, and it does not start at the top.

* `IsImport`: a text that stands in an import.
* `FileDescriptor.importsPaths_of_parse?`: the imports of a file that is read.
* `IsImport.isNormal`: what is between the slashes of an import path.
-/

namespace SchemaPage
namespace Proto

/-- A schema file that can be read has the text in an import. -/
def IsImport (text : String) : Prop :=
  ∃ name source f, FileDescriptor.parse? name source = some f ∧ text ∈ f.dependencies.map (·.path)

namespace Phrase

variable {α : Type} {p : Phrase α} {P : α → Prop}

/-- What is read after a condition is read where the condition holds. -/
theorem Always.guarded {c : Prop} [Decidable c] (h : c → p.Always P) :
    (guard c >>= fun _ => p).Always P := by
  intro ts a rest ha
  obtain ⟨_, rest', hguard, hp⟩ := bind_eq_some_iff.1 ha
  by_cases hc : c
  · exact h hc hp
  · rw [show (guard c : Phrase Unit) = Alternative.failure from if_neg hc] at hguard
    exact nomatch hguard

/-- Whatever is read to the end has the property. -/
theorem Always.whole (hp : p.Always P) {ts : List Token} {a : α} (h : whole? p ts = some a) :
    P a := by
  unfold whole? at h
  split at h
  · rename_i b hb
    obtain rfl := Option.some_inj.1 h
    exact hp hb
  · cases h

theorem always_importPhrase : importPhrase.Always fun d => isImportPath d.path = true := by
  have hpath : ∀ isPublic : Bool, (do
      let path ← string
      guard (isImportPath path)
      return (⟨path, isPublic⟩ : Dependency)).Always fun d => isImportPath d.path = true :=
    fun isPublic => Always.bind fun path => Always.guarded fun hpath => Always.pure hpath
  refine Always.bind fun isPublic => ?_
  cases isPublic with
  | true => exact Always.bind fun _ => hpath true
  | false => exact Always.bind fun _ => hpath false

end Phrase

namespace FileDescriptor

variable {f r : FileDescriptor}

/-- All imports of the file are paths. -/
def ImportsPaths (f : FileDescriptor) : Prop := ∀ d ∈ f.dependencies, isImportPath d.path = true

theorem ImportsPaths.congr (h : f.ImportsPaths) (heq : r.dependencies = f.dependencies) :
    r.ImportsPaths := by
  unfold ImportsPaths
  rwa [heq]

theorem dependencies_addMessages (groups : List (Located MessageDescriptor)) (f : FileDescriptor) :
    (groups.foldl addMessage f).dependencies = f.dependencies := by
  induction groups generalizing f with
  | nil => rfl
  | cons n groups ih => exact ih (f.addMessage n)

theorem importsPaths_of_fileLine? {tokens : List Token} (h : fileLine? f tokens = some r)
    (hf : f.ImportsPaths) : r.ImportsPaths := by
  unfold fileLine? at h
  split at h
  · rwa [← Option.some_inj.1 h]
  · obtain ⟨d, hd, h⟩ := Option.bind_eq_some_iff.1 h
    rw [← Option.some_inj.1 h]
    exact List.forall_mem_append.2
      ⟨hf, List.forall_mem_singleton.2 (Phrase.always_importPhrase.whole hd)⟩
  · obtain ⟨package, -, h⟩ := Option.bind_eq_some_iff.1 h
    split at h
    · exact hf.congr (by rw [← Option.some_inj.1 h])
    · cases h
  · obtain ⟨s, -, h⟩ := Option.bind_eq_some_iff.1 h
    exact hf.congr (by rw [← Option.some_inj.1 h])
  · cases h

theorem importsPaths_of_fileStatement? {leading : Option String} {s : Statement}
    (h : fileStatement? f leading s = some r) (hf : f.ImportsPaths) : r.ImportsPaths := by
  unfold fileStatement? at h
  split at h
  · exact importsPaths_of_fileLine? h hf
  · -- only lines import, and what is added by a block is no import
    simp only at h
    refine hf.congr ?_
    split at h
    · obtain ⟨m, -, h⟩ := Option.bind_eq_some_iff.1 h
      rw [← Option.some_inj.1 h]
      rfl
    · obtain ⟨e, -, h⟩ := Option.bind_eq_some_iff.1 h
      rw [← Option.some_inj.1 h]
      rfl
    · obtain ⟨s, -, h⟩ := Option.bind_eq_some_iff.1 h
      rw [← Option.some_inj.1 h]
      rfl
    · obtain ⟨extendee, -, h⟩ := Option.bind_eq_some_iff.1 h
      obtain ⟨e, -, h⟩ := Option.bind_eq_some_iff.1 h
      rw [← Option.some_inj.1 h]
      exact dependencies_addMessages e.groups f
    · cases h

theorem importsPaths_of_fileBody? {leading : Option String} {ss : List Statement}
    {last : List Remark}
    (h : fileBody? f leading ss last = some r) (hf : f.ImportsPaths) : r.ImportsPaths := by
  induction ss generalizing f leading with
  | nil => rwa [← Option.some_inj.1 h]
  | cons s ss ih =>
    obtain ⟨f', hf', h⟩ := Option.bind_eq_some_iff.1 h
    exact ih h (importsPaths_of_fileStatement? hf' hf)

/-- The imports of a file that is read are paths. -/
theorem importsPaths_of_parse? {name source : String} (h : parse? name source = some f) :
    f.ImportsPaths := by
  obtain ⟨ls, -, h⟩ := Option.bind_eq_some_iff.1 h
  obtain ⟨o, -, h⟩ := Option.bind_eq_some_iff.1 h
  unfold ofOutline? at h
  split at h
  · obtain ⟨dialect, -, h⟩ := Option.bind_eq_some_iff.1 h
    exact importsPaths_of_fileBody? h nofun
  · exact importsPaths_of_fileBody? h nofun

end FileDescriptor

/-- Between the slashes of a path in an import there are names. -/
theorem IsImport.isNormal {text : String} (h : IsImport text) :
    ∀ stretch ∈ Text.split '/' text, Path.IsNormal stretch := by
  obtain ⟨name, source, f, hparse, hmem⟩ := h
  obtain ⟨d, hd, rfl⟩ := List.mem_map.1 hmem
  have hpath := FileDescriptor.importsPaths_of_parse? hparse d hd
  intro stretch hstretch
  unfold isImportPath at hpath
  have hnames := List.all_eq_true.1 (Bool.and_eq_true_iff.1 hpath).2 stretch hstretch
  simp only [Bool.and_eq_true, bne_iff_ne] at hnames
  obtain ⟨⟨hempty, hdot⟩, hdots⟩ := hnames
  exact ⟨hempty, hdot, hdots, fun hslash => (Text.mem_of_mem_split hstretch hslash).2 rfl⟩

end Proto
end SchemaPage
