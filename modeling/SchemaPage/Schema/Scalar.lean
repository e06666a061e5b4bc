/-!
# Scalar types

The fifteen built-in types of the schema language, each with its keyword.

* `Scalar.ofKeyword?_keyword`: every scalar is found by its keyword.
* `Scalar.keyword_of_ofKeyword?`: a keyword stands for one scalar only.
-/

namespace SchemaPage

/-- A built-in type. -/
inductive Scalar where
  | double | float | int32 | int64 | uint32 | uint64 | sint32 | sint64
  | fixed32 | fixed64 | sfixed32 | sfixed64 | bool | string | bytes
  deriving DecidableEq, Repr

namespace Scalar

/-- The word that stands for the type in a schema. -/
def keyword : Scalar → String
  | double => "double"
  | float => "float"
  | int32 => "int32"
  | int64 => "int64"
  | uint32 => "uint32"
  | uint64 => "uint64"
  | sint32 => "sint32"
  | sint64 => "sint64"
  | fixed32 => "fixed32"
  | fixed64 => "fixed64"
  | sfixed32 => "sfixed32"
  | sfixed64 => "sfixed64"
  | bool => "bool"
  | string => "string"
  | bytes => "bytes"

/-- All scalar types. -/
def all : List Scalar :=
  [double, float, int32, int64, uint32, uint64, sint32, sint64,
   fixed32, fixed64, sfixed32, sfixed64, bool, string, bytes]

/-- The scalar that `word` stands for. -/
def ofKeyword? (word : String) : Option Scalar := all.find? (·.keyword == word)

/-- Every scalar is found by its keyword. -/
theorem ofKeyword?_keyword (s : Scalar) : ofKeyword? s.keyword = some s := by
  cases s <;> decide

/-- A keyword stands for one scalar only. -/
theorem keyword_of_ofKeyword? {word : String} {s : Scalar} (h : ofKeyword? word = some s) :
    s.keyword = word := by
  simpa using List.find?_some h

/-- Whether values of the type may be the keys of a map: the integers, `bool` and `string`. -/
def isKey : Scalar → Bool
  | double | float | bytes => false
  | _ => true

end Scalar

end SchemaPage
