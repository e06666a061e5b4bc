import SchemaPage.Schema.Member

/-!
# Schema files

A schema file as the documentation sees it: its services, enums and messages, flattened, so that a
nested declaration stands beside the outer one under a dotted name.

* `SchemaFile.qualify`: the full name of a declaration of the file.
-/

namespace SchemaPage

/-- A `service` declaration. -/
structure Service where
  name : String
  rpcs : List Rpc
  comment : Option Comment
  deriving DecidableEq, Repr

/-- An `enum` declaration; a nested one is named `Outer.Kind`. -/
structure EnumDecl where
  name : String
  constants : List EnumConstant
  comment : Option Comment
  deriving DecidableEq, Repr

/-- A `message` declaration; a nested one is named `Outer.Inner`. -/
structure Message where
  name : String
  fields : List Field
  comment : Option Comment
  deriving Repr

/-- Whether a file belongs to the documented project or was only pulled in by an import. -/
inductive Ownership where
  | owned
  | imported
  deriving DecidableEq, Repr

/-- A schema file. -/
structure SchemaFile where
  /-- The logical path, `dir/file.proto`, by which other files import this one. -/
  path : String
  /-- The package; empty when the file has no `package` statement. -/
  package : String
  ownership : Ownership
  services : List Service
  enums : List EnumDecl
  messages : List Message
  deriving Repr

namespace SchemaFile

/-- Whether the file belongs to the documented project. -/
def isOwned (file : SchemaFile) : Bool := file.ownership == .owned

/-- The full name of the declaration `name` of the file. -/
def qualify (file : SchemaFile) (name : String) : String :=
  if file.package = "" then name else file.package ++ "." ++ name

end SchemaFile

end SchemaPage
