import SchemaPage.Catalog
import SchemaPage.Page.Draft
import SchemaPage.Page.Options
import SchemaPage.Page.Reference

/-!
# Tables

The block of a declaration: its description and the table of its members, one row for each.  A
row comes out only when all the types it refers to are found.

* `Row`, `Row.pieces`: a row as a list of cells.
* `Rpc.row`, `EnumConstant.row`, `Field.row`: the row of a member.
* `Service.draft`, `EnumDecl.pieces`, `Message.draft`: the block of a declaration.
* `Oneof.draft`: the block of a group of fields inside a message.
-/

namespace SchemaPage

open Markup

/-! ## Cells and rows -/

/-- A cell of a table. -/
structure Cell where
  cls : String
  content : List Piece
  deriving DecidableEq, Repr

/-- The cells of a row. -/
abbrev Row := List Cell

/-- The indentation of a line inside a table. -/
def tabs (depth : Nat) : String := String.ofList (List.replicate depth '\t')

/-- The markup of a row that is indented by `depth`. -/
def Row.pieces (depth : Nat) (row : Row) : List Piece :=
  [line (tabs depth), .opening .tr []] ++
  row.flatMap (fun cell => line (tabs (depth + 1)) :: classed .td cell.cls cell.content) ++
  [line (tabs depth), .closing .tr]

/-- The start of a table with the titles of its columns. -/
def beginTable (attributes : List Attribute) (titles : List String) : List Piece :=
  [.opening .div [⟨"class", "list"⟩],
    line (tabs 2), .opening .table attributes,
    line (tabs 3), .opening .tr [],
    line (tabs 4)] ++
  titles.flatMap (fun title => element .th [.text title]) ++
  [line (tabs 3), .closing .tr]

/-- The end of a table. -/
def endTable : List Piece := [.closing .table, line (tabs 1), .closing .div]

/-- A table whose rows come out one after the other, up to the first that refers to nothing. -/
def table (attributes : List Attribute) (titles : List String) (depth : Nat)
    (rows : List (Except ResolveError Row)) : Draft :=
  .ofPieces (beginTable attributes titles) ++
  .concat (rows.map fun row => .ofExcept (row.map (Row.pieces depth))) ++
  .ofPieces endTable

/-! ## Descriptions -/

/-- The lines of a comment that are shown, with line breaks between them. -/
def commentPieces (comment : Option Comment) : List Piece :=
  match comment with
  | none => []
  | some c => (c.trimmed.map Piece.text).intersperse .lineBreak

/-- The description of a declaration; without a comment to show there is none. -/
def description (comment : Option Comment) : List Piece :=
  match commentPieces comment with
  | [] => []
  | pieces => classed .div "description" (element .p pieces)

/-- The start of the block of a declaration. -/
def beginDefinition (kind : String) (comment : Option Comment) : List Piece :=
  .opening .div [⟨"class", "definition " ++ kind⟩] :: description comment

/-! ## Services and enums -/

/-- The row of a method. -/
def Rpc.row (g : Graph) (context : Declaration) (rpc : Rpc) : Except ResolveError Row := do
  let request ← Reference.ofType g context rpc.request
  let response ← Reference.ofType g context rpc.response
  return [
    ⟨"fld-svc-method", [.text rpc.name]⟩,
    ⟨"fld-svc-req", request.pieces⟩,
    ⟨"fld-svc-ret", response.pieces⟩,
    ⟨"fld-svc-doc", commentPieces rpc.comment⟩]

/-- The methods in the order of the rows. -/
def MethodOrder.arrange : MethodOrder → List Rpc → List Rpc
  | source, rpcs => rpcs
  | name, rpcs => Rpc.sortedByName rpcs

/-- The block of a service. -/
def Service.draft (g : Graph) (order : MethodOrder) (context : Declaration) (s : Service) : Draft :=
  .ofPieces (beginDefinition "service" s.comment) ++
  table [] ["Method name", "Request Type", "Response Type", "Description"] 2
    ((order.arrange s.rpcs).map (Rpc.row g context)) ++
  .ofPieces [line (tabs 1), .closing .div]

/-- The row of a constant. -/
def EnumConstant.row (c : EnumConstant) : Row :=
  [⟨"fld-enum-name", [.text c.name]⟩,
    ⟨"fld-enum-value", [.text (toString c.value)]⟩,
    ⟨"fld-enum-doc", commentPieces c.comment⟩]

/-- The block of an enum, which refers to nothing. -/
def EnumDecl.draft (e : EnumDecl) : Draft :=
  .ofPieces (beginDefinition "enum" e.comment) ++
  table [] ["Name", "Value", "Description"] 2 (e.constants.map fun c => .ok c.row) ++
  .ofPieces [line (tabs 1), .closing .div]

/-! ## Messages -/

/-- The words in the column of flags. -/
def PlainField.flags (f : PlainField) : List String :=
  (if f.required then ["required"] else []) ++
  (if f.repeated then ["repeated"] else []) ++
  (if f.optional then ["optional"] else [])

/-- How a repeated type is shown. -/
def Reference.many (r : Reference) : Reference := { r with display := r.display ++ "[]" }

/-- The cell for the type of a field. -/
def Field.typePieces (g : Graph) (context : Declaration) : Field → Except ResolveError (List Piece)
  | .plain f => do
    let reference ← Reference.ofType g context f.typeName
    return (if f.repeated then reference.many else reference).pieces
  | .map f => do
    let key ← Reference.ofType g context f.keyType
    let value ← Reference.ofType g context f.valueType
    return [.text "map<"] ++ key.pieces ++ [.text ", "] ++ value.pieces ++ [.text ">"]
  | .oneof name members comment => .ok (Reference.ofOneof context ⟨name, members, comment⟩).pieces

/-- The words in the column of flags; only a plain field has any. -/
def Field.flags : Field → List String
  | .plain f => f.flags
  | _ => []

/-- The row of a field. -/
def Field.row (g : Graph) (context : Declaration) (f : Field) : Except ResolveError Row := do
  let type ← f.typePieces g context
  return [
    ⟨"fld-msg-fieldname", [.text f.name]⟩,
    ⟨"fld-msg-type", type⟩,
    ⟨"fld-msg-opt", [.text (",".intercalate f.flags)]⟩,
    ⟨"fld-msg-doc", commentPieces f.comment⟩]

/-- The fields in the order of the rows. -/
def FieldOrder.arrange : FieldOrder → List Field → List Field
  | source, fields => fields
  | name, fields => Field.sortedByName fields
  | tag, fields => Field.sortedByTag fields

/-- The table of a list of fields. -/
def fieldTable (g : Graph) (order : FieldOrder) (context : Declaration)
    (attributes : List Attribute) (fields : List Field) : Draft :=
  table attributes ["Fieldname", "Type", "Flags", "Description"] 3
    ((order.arrange fields).map (Field.row g context))

/-- The block of a message, without the groups inside it. -/
def Message.draft (g : Graph) (order : FieldOrder) (context : Declaration) (m : Message) : Draft :=
  .ofPieces (beginDefinition "message" m.comment) ++
  fieldTable g order context [] m.fields ++
  .ofPieces [.closing .div]

/-- The heading of a group of fields. -/
def Oneof.heading (context : Declaration) (group : Oneof) : List Piece :=
  [.opening .div [⟨"class", "ns-itemsub"⟩], line (tabs 4)] ++
  anchor (Anchor.oneof context.fullName group.name)
    [.text ("Oneof " ++ context.name ++ "." ++ group.name)] ++
  [line (tabs 3), .closing .div]

/-- The block of a group of fields. -/
def Oneof.draft (g : Graph) (order : FieldOrder) (context : Declaration) (group : Oneof) : Draft :=
  .ofPieces (group.heading context ++ beginDefinition "oneof" group.comment) ++
  fieldTable g order context [⟨"class", "oneof"⟩] group.members ++
  .ofPieces [.closing .div]

end SchemaPage
