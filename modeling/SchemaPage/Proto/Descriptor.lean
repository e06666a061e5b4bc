import SchemaPage.Proto.Token
import SchemaPage.Schema.Scalar

/-!
# Descriptors

What a schema file declares, in the order in which it declares it, with the comments beside: a
comment is found by the path of its declaration, a list of field numbers and positions.

A named type is written down as it stands in the text; only after linking is it a full name with a
leading dot, and only then is it known whether it names a message or an enum.

* `FileDescriptor`, `MessageDescriptor`, `FieldDescriptor`, `EnumDescriptor`, `ServiceDescriptor`.
* `Location`: the comments at a path.
-/

namespace SchemaPage
namespace Proto

/-- The dialect of a schema. -/
inductive Dialect where
  | proto2
  | proto3
  deriving DecidableEq, Repr

/-- How often a field may occur. -/
inductive Label where
  | optional
  | required
  | repeated
  deriving DecidableEq, Repr

/-- The kind of a field, as far as it is known. -/
inductive FieldKind where
  | scalar (scalar : Scalar)
  | message
  | group
  | enumeration
  deriving DecidableEq, Repr

/-- A part of the name of an option.  A part in brackets is the name of an extension. -/
structure OptionPart where
  name : String
  isExtension : Bool
  deriving DecidableEq, Repr

/-- The value of an option, as it is written. -/
inductive OptionValue where
  /-- A word, with the minus sign in front of it if there is one. -/
  | word (text : String)
  | natural (n : Nat)
  /-- A number with a minus sign in front of it. -/
  | negative (n : Nat)
  | decimal
  | text (bytes : List UInt8)
  /-- A value between braces: the tokens inside them. -/
  | braces (tokens : List Token)
  deriving DecidableEq, Repr

namespace OptionValue

/-- The integer that the value writes. -/
def int? : OptionValue → Option Int
  | natural n => some n
  | negative n => some (-n)
  | _ => none

end OptionValue

/-- A setting of an option. -/
structure OptionSetting where
  name : List OptionPart
  value : OptionValue
  deriving DecidableEq, Repr

/-- A range of numbers, both ends included. -/
structure NumberRange where
  first : Int
  last : Int
  deriving DecidableEq, Repr

/-- Whether the range has the number. -/
def NumberRange.has (r : NumberRange) (n : Int) : Bool := r.first ≤ n && n ≤ r.last

/-- The numbers that a type holds, if it holds integers. -/
def integers? : Scalar → Option NumberRange
  | .int32 | .sint32 | .sfixed32 => some ⟨-2147483648, 2147483647⟩
  | .uint32 | .fixed32 => some ⟨0, 4294967295⟩
  | .int64 | .sint64 | .sfixed64 => some ⟨-9223372036854775808, 9223372036854775807⟩
  | .uint64 | .fixed64 => some ⟨0, 18446744073709551615⟩
  | _ => none

/-- A field of a message, or an extension. -/
structure FieldDescriptor where
  name : String
  number : Int
  label : Label := .optional
  /-- What the field holds; nothing when the type is a name that is not linked. -/
  kind : Option FieldKind := none
  /-- The name of the type; empty for a scalar. -/
  typeName : String := ""
  /-- The position of the group of fields that this field belongs to. -/
  oneofIndex : Option Int := none
  /-- Whether the field is marked `optional` in the third dialect. -/
  proto3Optional : Bool := false
  /-- The message that an extension extends; empty for a field. -/
  extendee : String := ""
  options : List OptionSetting := []
  deriving DecidableEq, Repr

/-- The characters without underscores, and a capital after each of them; also at the start while
`capital`. -/
def camelCase (capital : Bool) : List Char → List Char
  | [] => []
  | c :: cs =>
    if c = '_' then camelCase true cs
    else (if capital then c.toUpper else c) :: camelCase false cs

/-- A constant of an enum. -/
structure ConstantDescriptor where
  name : String
  number : Int
  options : List OptionSetting := []
  deriving DecidableEq, Repr

/-- An enum. -/
structure EnumDescriptor where
  name : String
  constants : List ConstantDescriptor := []
  reservedRanges : List NumberRange := []
  reservedNames : List String := []
  options : List OptionSetting := []
  deriving DecidableEq, Repr

/-- A group of fields of which one at most is set. -/
structure OneofDescriptor where
  name : String
  options : List OptionSetting := []
  deriving DecidableEq, Repr

/-- Numbers that a message leaves to extensions, in one statement. -/
structure ExtensionRanges where
  ranges : List NumberRange
  options : List OptionSetting := []
  deriving DecidableEq, Repr

/-- A message. -/
structure MessageDescriptor where
  name : String
  fields : List FieldDescriptor := []
  nested : List MessageDescriptor := []
  enums : List EnumDescriptor := []
  /-- The groups of fields. -/
  oneofs : List OneofDescriptor := []
  extensions : List FieldDescriptor := []
  extensionRanges : List ExtensionRanges := []
  reservedRanges : List NumberRange := []
  reservedNames : List String := []
  /-- Whether the message stands for an entry of a map. -/
  mapEntry : Bool := false
  options : List OptionSetting := []
  deriving Repr

/-- The ranges of numbers that the message leaves to extensions. -/
def MessageDescriptor.openRanges (m : MessageDescriptor) : List NumberRange :=
  m.extensionRanges.flatMap (·.ranges)

/-- A method of a service. -/
structure MethodDescriptor where
  name : String
  input : String
  output : String
  options : List OptionSetting := []
  deriving DecidableEq, Repr

/-- A service. -/
structure ServiceDescriptor where
  name : String
  methods : List MethodDescriptor := []
  options : List OptionSetting := []
  deriving DecidableEq, Repr

/-- An import; a public one is passed on to those who import the file. -/
structure Dependency where
  path : String
  isPublic : Bool
  deriving DecidableEq, Repr

/-- The comments on the declaration at a path. -/
structure Location where
  path : List Nat
  leading : Option String
  trailing : Option String
  deriving DecidableEq, Repr

/-- A schema file. -/
structure FileDescriptor where
  /-- The logical name of the file. -/
  name : String
  package : String := ""
  dialect : Dialect := .proto2
  dependencies : List Dependency := []
  messages : List MessageDescriptor := []
  enums : List EnumDescriptor := []
  services : List ServiceDescriptor := []
  extensions : List FieldDescriptor := []
  options : List OptionSetting := []
  locations : List Location := []
  deriving Repr

/-! ## Numbers in paths -/

/-- The numbers under which paths list what a declaration holds. -/
inductive Slot where
  | fileMessage
  | fileEnum
  | fileService
  | messageField
  | messageNested
  | messageEnum
  | messageOneof
  | enumConstant
  | serviceMethod
  deriving DecidableEq, Repr

/-- The number for a slot. -/
def Slot.number : Slot → Nat
  | fileMessage => 4
  | fileEnum => 5
  | fileService => 6
  | messageField => 2
  | messageNested => 3
  | messageEnum => 4
  | messageOneof => 8
  | enumConstant => 2
  | serviceMethod => 2

/-- The path of the declaration at a position in a slot of the declaration at `path`. -/
def childPath (path : List Nat) (slot : Slot) (index : Nat) : List Nat :=
  path ++ [slot.number, index]

end Proto
end SchemaPage
