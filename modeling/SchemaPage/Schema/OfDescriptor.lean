import SchemaPage.Proto.Descriptor
import SchemaPage.Schema.Declaration
import SchemaPage.Text.Blank

/-!
# From descriptors to schema files

A descriptor follows the text of a file; the documentation shows the file flattened.  Nested
messages and enums stand beside the outer ones under dotted names, the fields of a group are
gathered into one member at the place of its first field, and the messages that stand for the
entries of maps are folded back into map fields.

* `Proto.Placed`: a message descriptor with its dotted name and its path.
* `Proto.MessageDescriptor.placed`: the messages in a message, outer ones first.
* `Proto.Placed.members`: the members of a message.
* `SchemaFile.ofDescriptor`: the whole file.
-/

namespace SchemaPage
namespace Proto

/-! ## Comments -/

/-- The comment in a text, unless that is blank. -/
def Location.comment? (l : Location) : Option Comment :=
  let shown (text : Option String) : Option String := text.filter (!Text.isBlank ·)
  ((shown l.leading).or (shown l.trailing)).map Comment.ofText

/-- The comment at a path: that of the first location there that has one. -/
def commentAt (locations : List Location) (path : List Nat) : Option Comment :=
  (locations.filter (·.path == path)).findSome? Location.comment?

/-! ## Fields -/

namespace FieldDescriptor

/-- The type of the field as it is written down: the name, or the keyword of the scalar. -/
def writtenType (f : FieldDescriptor) : String :=
  match f.kind.getD (.scalar .double) with
  | .scalar s => if f.typeName = "" then s.keyword else f.typeName
  | _ => f.typeName

/-- The position of the group that the field is shown in.  A field that is marked `optional` is
alone in its group, which is not shown. -/
def shownOneof (f : FieldDescriptor) : Option Nat :=
  if f.proto3Optional then none
  else
    match f.oneofIndex with
    | some (.ofNat n) => some n
    | _ => none

end FieldDescriptor

/-- The last part of a dotted name. -/
def lastPart (name : String) : String :=
  String.ofList (name.toList.reverse.takeWhile (· != '.')).reverse

/-- A message descriptor with its place in the file. -/
structure Placed where
  message : MessageDescriptor
  /-- The name inside the package, dotted. -/
  name : String
  path : List Nat

namespace MessageDescriptor

/-- The message for the entries of a map of the name `name`; of equal names the last one counts. -/
def entryNamed? (m : MessageDescriptor) (name : String) : Option MessageDescriptor :=
  (m.nested.filter (·.mapEntry)).reverse.find? (·.name == name)

/-- The message for the entries of the map that the field is, if it is one. -/
def entryOf? (m : MessageDescriptor) (f : FieldDescriptor) : Option MessageDescriptor :=
  if f.label = .repeated ∧ f.kind = some .message then m.entryNamed? (lastPart f.typeName) else none

end MessageDescriptor

namespace Placed

variable (locations : List Location) (dialect : Dialect) (p : Placed)

/-- The member for the field at a position. -/
def field (inGroup : Bool) (f : FieldDescriptor) (index : Nat) : Field :=
  let comment := commentAt locations (childPath p.path .messageField index)
  match p.message.entryOf? f with
  | some entry =>
    .map
      { name := f.name
        keyType := (entry.fields[0]?.map FieldDescriptor.writtenType).getD ""
        valueType := (entry.fields[1]?.map FieldDescriptor.writtenType).getD ""
        tag := f.number
        comment }
  | none =>
    .plain
      { name := f.name
        typeName := f.writtenType
        tag := f.number
        required := f.label = .required
        repeated := f.label = .repeated
        optional := f.proto3Optional || (f.label = .optional && dialect = .proto2 && !inGroup)
        comment }

/-- The fields that are shown in the group at a position, with their own positions. -/
def inOneof (oneof : Nat) : List (FieldDescriptor × Nat) :=
  p.message.fields.zipIdx.filter fun (f, _) => f.shownOneof == some oneof

/-- The group at a position, with its fields. -/
def oneof (oneof : Nat) : Field :=
  .oneof ((p.message.oneofs[oneof]?.map OneofDescriptor.name).getD "")
    ((p.inOneof oneof).map fun (f, index) => p.field locations dialect true f index)
    (commentAt locations (childPath p.path .messageOneof oneof))

/-- What the field at a position adds to the members: itself, the group of which it is the first
field, or nothing. -/
def memberAt (f : FieldDescriptor) (index : Nat) : List Field :=
  match f.shownOneof with
  | none => [p.field locations dialect false f index]
  | some oneof =>
    if (p.message.fields.take index).any (·.shownOneof == some oneof) then []
    else [p.oneof locations dialect oneof]

/-- The members of the message. -/
def members : List Field :=
  p.message.fields.zipIdx.flatMap fun (f, index) => p.memberAt locations dialect f index

end Placed

/-! ## Declarations -/

/-- The dotted name of something inside a scope. -/
def scopedName (scope : Option String) (name : String) : String :=
  match scope with
  | some scope => scope ++ "." ++ name
  | none => name

mutual

/-- The messages in a message: itself, and then those inside it that stand for no map entry. -/
def MessageDescriptor.placed (scope : Option String) (path : List Nat) :
    MessageDescriptor → List Placed
  | m@⟨_, _, nested, _, _, _, _, _, _, _, _⟩ =>
    let name := scopedName scope m.name
    ⟨m, name, path⟩ ::
      placedAll (fun n => (m.entryNamed? n).isNone) (some name) path 0 nested

/-- The messages in those messages of a list whose names are admitted.  The list starts at a
position of the slot for nested messages. -/
def placedAll (admitted : String → Bool) (scope : Option String) (path : List Nat) (index : Nat) :
    List MessageDescriptor → List Placed
  | [] => []
  | m :: rest =>
    (if admitted m.name then m.placed scope (childPath path .messageNested index) else []) ++
      placedAll admitted scope path (index + 1) rest

end

/-- An enum in a scope. -/
def EnumDescriptor.declaration (locations : List Location) (scope : Option String)
    (path : List Nat) (e : EnumDescriptor) : EnumDecl :=
  { name := scopedName scope e.name
    constants := e.constants.zipIdx.map fun (c, index) =>
      { name := c.name
        value := c.number
        comment := commentAt locations (childPath path .enumConstant index) }
    comment := commentAt locations path }

/-- A service. -/
def ServiceDescriptor.declaration (locations : List Location) (path : List Nat)
    (s : ServiceDescriptor) : Service :=
  { name := s.name
    rpcs := s.methods.zipIdx.map fun (m, index) =>
      { name := m.name
        request := m.input
        response := m.output
        comment := commentAt locations (childPath path .serviceMethod index) }
    comment := commentAt locations path }

/-- The message that a descriptor declares at its place. -/
def Placed.declaration (locations : List Location) (dialect : Dialect) (p : Placed) : Message :=
  { name := p.name
    fields := p.members locations dialect
    comment := commentAt locations p.path }

/-- The enums that a message declares inside itself. -/
def Placed.enums (locations : List Location) (p : Placed) : List EnumDecl :=
  p.message.enums.zipIdx.map fun (e, index) =>
    e.declaration locations (some p.name) (childPath p.path .messageEnum index)

/-- The messages of a file, outer ones first. -/
def FileDescriptor.placed (f : FileDescriptor) : List Placed :=
  f.messages.zipIdx.flatMap fun (m, index) => m.placed none (childPath [] .fileMessage index)

end Proto

open Proto in
/-- The schema file that a descriptor describes. -/
def SchemaFile.ofDescriptor (ownership : Ownership) (f : FileDescriptor) : SchemaFile :=
  let outerEnums := f.enums.zipIdx.map fun (e, index) =>
    e.declaration f.locations none (childPath [] .fileEnum index)
  { path := f.name
    package := f.package
    ownership
    services := f.services.zipIdx.map fun (s, index) =>
      s.declaration f.locations (childPath [] .fileService index)
    enums := outerEnums ++ f.placed.flatMap (Placed.enums f.locations)
    messages := f.placed.map (Placed.declaration f.locations f.dialect) }

end SchemaPage
