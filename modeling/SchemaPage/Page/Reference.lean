import SchemaPage.Graph.Resolve
import SchemaPage.Page.Anchor
import SchemaPage.Page.Markup

/-!
# References in tables

How a type name is shown in a cell: a text, with a link when the type belongs to the documented
project.

* `Reference.ofType`: the reference that a type name makes.
* `Reference.ofOneof`: the reference of a row that stands for a group of fields.
* `Reference.pieces`: its markup.
-/

namespace SchemaPage

/-- A reference as it is shown. -/
structure Reference where
  /-- The text that is shown. -/
  display : String
  /-- The anchor that the text links to. -/
  link : Option String
  deriving DecidableEq, Repr

namespace Reference

/-- A reference without a link. -/
def plain (display : String) : Reference := ⟨display, none⟩

/-- The markup of a reference. -/
def pieces (reference : Reference) : List Piece :=
  match reference.link with
  | some anchor => Markup.link anchor [.text reference.display]
  | none => [.text reference.display]

/-- How the declaration `target` is shown inside `context`: by its short name in its own file and
by its full name elsewhere, with a link when it is owned. -/
def ofDeclaration (context target : Declaration) : Reference :=
  { display := if target.sameFile context then target.name else target.fullName
    link := if target.isOwned then some (Anchor.ofType target) else none }

/-- How a resolved type name is shown; one that stands for nothing is shown as it is written. -/
def ofResolved (context : Declaration) (typeName : String) : Option ResolvedType → Reference
  | none => plain typeName
  | some (.scalar s) => plain s.keyword
  | some (.declared target) => ofDeclaration context target

/-- How `typeName` is shown inside `context`. -/
def ofType (g : Graph) (context : Declaration) (typeName : String) :
    Except ResolveError Reference :=
  (g.resolve context typeName).map (ofResolved context typeName)

/-- How a group of fields is shown in the table of `context`: by the names of its members, with a
link to its own block. -/
def ofOneof (context : Declaration) (group : Oneof) : Reference :=
  let members :=
    if group.members.isEmpty then ""
    else "(" ++ ", ".intercalate (group.members.map Field.name) ++ ")"
  { display := "oneof " ++ members
    link := some (Anchor.oneof context.fullName group.name) }

end Reference

end SchemaPage
