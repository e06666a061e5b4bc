/-!
# Page options

The choices that shape a page: its title, the order of rows, and the files it is about.
-/

namespace SchemaPage

/-- The order of the rows in the table of a message or of a group of fields. -/
inductive FieldOrder where
  | source
  | name
  | tag
  deriving DecidableEq, Repr

/-- The word for the order. -/
def FieldOrder.word : FieldOrder → String
  | source => "source"
  | name => "name"
  | tag => "tag"

/-- The order that a word stands for. -/
def FieldOrder.ofWord? (word : String) : Option FieldOrder :=
  [source, name, tag].find? (·.word == word)

/-- The order of the rows in the table of a service. -/
inductive MethodOrder where
  | source
  | name
  deriving DecidableEq, Repr

/-- The word for the order. -/
def MethodOrder.word : MethodOrder → String
  | source => "source"
  | name => "name"

/-- The order that a word stands for. -/
def MethodOrder.ofWord? (word : String) : Option MethodOrder :=
  [source, name].find? (·.word == word)

/-- What a page is to look like. -/
structure PageOptions where
  title : String := "Documentation"
  fieldOrder : FieldOrder := .source
  methodOrder : MethodOrder := .source
  /-- When there are any, the page is about the owned files with these paths only. -/
  paths : List String := []
  deriving DecidableEq, Repr

end SchemaPage
