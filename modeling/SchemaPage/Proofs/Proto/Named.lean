import SchemaPage.Proto.Reader

/-!
# The logical name of a file

A text is read in the same way under every logical name: the name goes into the descriptor and
nowhere else.

* `FileDescriptor.named`: the file under another name.
* `FileDescriptor.parse?_eq`: reading under a name is reading under none and naming what is read.
* `FileDescriptor.name_of_parse?`: a file has the name under which it is read.
-/

namespace SchemaPage
namespace Proto

namespace FileDescriptor

/-- The file under another logical name. -/
def named (name : String) (f : FileDescriptor) : FileDescriptor := { f with name }

theorem named_addMessages (name : String) (groups : List (Located MessageDescriptor))
    (f : FileDescriptor) :
    groups.foldl addMessage (f.named name) = (groups.foldl addMessage f).named name := by
  induction groups generalizing f with
  | nil => rfl
  | cons n groups ih => exact ih (f.addMessage n)

end FileDescriptor

open FileDescriptor

theorem fileLine?_named (name : String) (f : FileDescriptor) (tokens : List Token) :
    fileLine? (f.named name) tokens = (fileLine? f tokens).map (named name) := by
  unfold fileLine?
  split
  · rfl
  · rename_i tokens
    cases importPhrase.whole? tokens <;> rfl
  · rename_i tokens
    cases Phrase.name.whole? tokens with
    | none => rfl
    | some package =>
      by_cases hpackage : f.package = ""
      · have hnamed : (f.named name).package = "" := hpackage
        simp only [Option.bind_eq_bind, Option.bind_some, if_pos hpackage, if_pos hnamed]
        rfl
      · have hnamed : (f.named name).package ≠ "" := hpackage
        simp only [Option.bind_eq_bind, Option.bind_some, if_neg hpackage, if_neg hnamed]
        rfl
  · rename_i tokens
    cases optionLine? tokens <;> rfl
  · rfl

theorem fileStatement?_named (name : String) (f : FileDescriptor) (leading : Option String)
    (s : Statement) :
    fileStatement? (f.named name) leading s = (fileStatement? f leading s).map (named name) := by
  unfold fileStatement?
  cases s with
  | simple before tokens => exact fileLine?_named name f tokens
  | block before header body last =>
    have hdialect : (f.named name).dialect = f.dialect := rfl
    simp only [hdialect]
    split
    · rename_i m
      cases messageBody? f.dialect
        (.leaf { name := m } leading (Statement.opening body last).trailing)
        body last <;> rfl
    · rename_i e
      cases enumBody? (.leaf { name := e } leading (Statement.opening body last).trailing)
        body last <;> rfl
    · rename_i s
      cases serviceBody? (.leaf { name := s } leading (Statement.opening body last).trailing)
        body last <;> rfl
    · rename_i extendee
      cases Phrase.typeName.whole? extendee with
      | none => rfl
      | some extendee =>
        cases he : extendBody? f.dialect extendee body last with
        | none =>
          simp only [Option.bind_eq_bind, Option.bind_some, he]
          rfl
        | some e =>
          simp only [Option.bind_eq_bind, Option.bind_some, he, named_addMessages]
          rfl
    · rfl

theorem fileBody?_named (name : String) (f : FileDescriptor) (leading : Option String)
    (ss : List Statement) (last : List Remark) :
    fileBody? (f.named name) leading ss last = (fileBody? f leading ss last).map (named name) := by
  induction ss generalizing f leading with
  | nil => rfl
  | cons s ss ih =>
    unfold fileBody?
    rw [fileStatement?_named]
    cases fileStatement? f leading s with
    | none => rfl
    | some f' => exact ih f' _

namespace FileDescriptor

/-- Reading under a name is reading under none and naming what is read. -/
theorem parse?_eq (name text : String) : parse? name text = (parse? "" text).map (named name) := by
  have hstart : ∀ (dialect : Dialect) (leading : Option String) (ss : List Statement)
      (last : List Remark), fileBody? { name, dialect } leading ss last =
        (fileBody? { name := "", dialect } leading ss last).map (named name) :=
    fun dialect leading ss last => fileBody?_named name { name := "", dialect } leading ss last
  have houtline : ∀ o, ofOutline? name o = (ofOutline? "" o).map (named name) := by
    intro o
    unfold ofOutline?
    split
    · rename_i tokens rest _
      cases dialectPhrase.whole? tokens with
      | none => rfl
      | some dialect => exact hstart dialect _ rest o.last
    · exact hstart .proto2 _ _ o.last
  unfold parse?
  cases lex? text with
  | none => rfl
  | some ls =>
    cases ho : Outline.ofLexemes? ls with
    | none =>
      simp only [Option.bind_eq_bind, Option.bind_some, ho, Option.bind_none, Option.map_none]
    | some o =>
      simp only [Option.bind_eq_bind, Option.bind_some, ho]
      exact houtline o

/-- A file has the name under which it is read. -/
theorem name_of_parse? {name text : String} {f : FileDescriptor} (h : parse? name text = some f) :
    f.name = name := by
  rw [parse?_eq] at h
  obtain ⟨f, -, rfl⟩ := Option.map_eq_some_iff.1 h
  rfl

end FileDescriptor

end Proto
end SchemaPage
