import SchemaPage.Proto.Descriptor

/-!
# Values of options

Which of the values that an option may be written with stand for a value of a scalar type.  The
default value of a field is written like an option, but not quite: it may be an infinity or no
number, and one without a sign has no minus sign at all.

* `OptionValue.fits`: the values of an option.
* `OptionValue.isDefaultOf`: the values of a default.
-/

namespace SchemaPage
namespace Proto

/-- Whether bytes are a text. -/
def isText (bytes : List UInt8) : Bool := (String.fromUTF8? bytes.toByteArray).isSome

namespace OptionValue

/-- Whether an option of a scalar type may have the value. -/
def fits (value : OptionValue) (s : Scalar) : Bool :=
  match integers? s with
  | some range => value.int?.any range.has
  | none =>
    match s, value with
    | .bool, word w => w == "true" || w == "false"
    | .string, text bytes => isText bytes
    | .bytes, text _ => true
    | .double, value | .float, value => value == decimal || value.int?.isSome
    | _, _ => false

/-- The words for what is no number between others. -/
def boundaryWords : List String := ["inf", "nan", "-inf", "-nan"]

/-- Whether a field of a scalar type may have the value as its default. -/
def isDefaultOf (value : OptionValue) (s : Scalar) : Bool :=
  match s, value with
  | .double, word w | .float, word w => boundaryWords.contains w
  | .uint32, negative _ | .uint64, negative _ | .fixed32, negative _ | .fixed64, negative _ => false
  | s, value => value.fits s

end OptionValue

/-- Whether a field of a kind and a label may have the value as its default.  Of a type that is only
named nothing is known yet. -/
def defaultFits (dialect : Dialect) (label : Label) (kind : Option FieldKind)
    (value : OptionValue) : Bool :=
  dialect == .proto2 && label != .repeated &&
    match kind with
    | some (.scalar s) => value.isDefaultOf s
    | some _ => false
    | none => true

end Proto
end SchemaPage
