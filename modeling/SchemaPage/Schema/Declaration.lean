import SchemaPage.Schema.File

/-!
# Declarations

A declaration is a service, an enum or a message together with the file that holds it.

* `Declaration.fullName`, `Declaration.package`, `Declaration.name`: the dotted name, the package
  and the name inside the package.
* `SchemaFile.declarations`: the declarations of one kind, in source order;
  `kind_of_mem_declarations` and `file_of_mem_declarations` say what they have in common.
* `SchemaFile.allDeclarations`: services, then enums, then messages.
-/

namespace SchemaPage

/-- The kind of a declaration. -/
inductive Kind where
  | service
  | enumeration
  | message
  deriving DecidableEq, Repr

namespace Kind

/-- The kinds in the order in which a page shows them. -/
def all : List Kind := [service, enumeration, message]

/-- The word for the kind in anchors and reports. -/
def label : Kind → String
  | service => "Service"
  | enumeration => "Enum"
  | message => "Message"

/-- The heading of the section for the kind. -/
def title : Kind → String
  | service => "Services"
  | enumeration => "Enums"
  | message => "Messages"

end Kind

/-- What a declaration declares. -/
inductive Item where
  | service (service : Service)
  | enumeration (enumeration : EnumDecl)
  | message (message : Message)
  deriving Repr

/-- A declaration and the file that holds it. -/
structure Declaration where
  file : SchemaFile
  item : Item
  deriving Repr

namespace Declaration

variable (d : Declaration)

/-- The kind of the declaration. -/
def kind : Kind :=
  match d.item with
  | .service _ => .service
  | .enumeration _ => .enumeration
  | .message _ => .message

/-- The name inside the package. -/
def name : String :=
  match d.item with
  | .service s => s.name
  | .enumeration e => e.name
  | .message m => m.name

/-- The comment on the declaration. -/
def comment : Option Comment :=
  match d.item with
  | .service s => s.comment
  | .enumeration e => e.comment
  | .message m => m.comment

/-- The package of the file. -/
def package : String := d.file.package

/-- The logical path of the file. -/
def path : String := d.file.path

/-- The package and the name, dotted. -/
def fullName : String := d.file.qualify d.name

/-- Whether the file belongs to the documented project. -/
def isOwned : Bool := d.file.isOwned

/-- Whether two declarations stand in the same file, which the logical paths tell. -/
def sameFile (d e : Declaration) : Bool := d.file.path == e.file.path

/-- The fields of a message; other declarations have none. -/
def fields : List Field :=
  match d.item with
  | .message m => m.fields
  | _ => []

end Declaration

namespace SchemaFile

/-- The declarations of one kind, in source order. -/
def declarations (file : SchemaFile) : Kind → List Declaration
  | .service => file.services.map fun s => ⟨file, .service s⟩
  | .enumeration => file.enums.map fun e => ⟨file, .enumeration e⟩
  | .message => file.messages.map fun m => ⟨file, .message m⟩

/-- Every declaration: services, then enums, then messages. -/
def allDeclarations (file : SchemaFile) : List Declaration := Kind.all.flatMap file.declarations

theorem kind_of_mem_declarations {file : SchemaFile} {k : Kind} {d : Declaration}
    (h : d ∈ file.declarations k) : d.kind = k := by
  cases k <;> obtain ⟨_, _, rfl⟩ := List.mem_map.1 h <;> rfl

theorem file_of_mem_declarations {file : SchemaFile} {k : Kind} {d : Declaration}
    (h : d ∈ file.declarations k) : d.file = file := by
  cases k <;> obtain ⟨_, _, rfl⟩ := List.mem_map.1 h <;> rfl

end SchemaFile

end SchemaPage
