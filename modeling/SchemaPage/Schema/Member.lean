import SchemaPage.Schema.Comment

/-!
# Members of declarations

What stands inside a declaration: the constants of an enum, the methods of a service and the
fields of a message.  A field is plain, a map, or a `oneof` group of further fields, which may nest
to any depth.

* `Field.firstTag`: the number a field is sorted by; a group counts as its first member.
* `Field.oneofs`: every group among the fields, an outer one before those inside it.
-/

namespace SchemaPage

/-- A method of a service, with its types as written. -/
structure Rpc where
  name : String
  request : String
  response : String
  comment : Option Comment
  deriving DecidableEq, Repr

/-- A constant of an enum. -/
structure EnumConstant where
  name : String
  value : Int
  comment : Option Comment
  deriving DecidableEq, Repr

/-- A field of scalar, message or enum type. -/
structure PlainField where
  name : String
  typeName : String
  tag : Int
  required : Bool
  repeated : Bool
  optional : Bool
  comment : Option Comment
  deriving DecidableEq, Repr

/-- A field of type `map<K, V>`. -/
structure MapField where
  name : String
  keyType : String
  valueType : String
  tag : Int
  comment : Option Comment
  deriving DecidableEq, Repr

/-- A member of a message: a plain field, a map, or a group of fields of which at most one is
set. -/
inductive Field where
  | plain (field : PlainField)
  | map (field : MapField)
  | oneof (name : String) (members : List Field) (comment : Option Comment)
  deriving Repr

/-- A group of fields of which at most one is set. -/
structure Oneof where
  name : String
  members : List Field
  comment : Option Comment
  deriving Repr

namespace Field

/-- The name of the member. -/
def name : Field → String
  | plain f => f.name
  | map f => f.name
  | oneof name _ _ => name

/-- The comment on the member. -/
def comment : Field → Option Comment
  | plain f => f.comment
  | map f => f.comment
  | oneof _ _ comment => comment

/-- The number that the member is sorted by.  A group counts as its first member, and as 0 when
it has none. -/
def firstTag : Field → Int
  | plain f => f.tag
  | map f => f.tag
  | oneof _ [] _ => 0
  | oneof _ (f :: _) _ => f.firstTag

@[simp] theorem firstTag_oneof_nil (name : String) (comment : Option Comment) :
    (oneof name [] comment).firstTag = 0 := by
  unfold firstTag; rfl

@[simp] theorem firstTag_oneof_cons (name : String) (f : Field) (members : List Field)
    (comment : Option Comment) : (oneof name (f :: members) comment).firstTag = f.firstTag := by
  conv => lhs; unfold firstTag

mutual

/-- The groups in one member: itself, if it is one, and then those inside it. -/
def ownOneofs : Field → List Oneof
  | plain _ => []
  | map _ => []
  | oneof name members comment => ⟨name, members, comment⟩ :: oneofs members

/-- Every group among the fields and inside them, an outer group before those inside it. -/
def oneofs : List Field → List Oneof
  | [] => []
  | f :: fields => f.ownOneofs ++ oneofs fields

end

@[simp] theorem oneofs_nil : oneofs [] = [] := by unfold oneofs; rfl

theorem oneofs_cons (f : Field) (fields : List Field) :
    oneofs (f :: fields) = f.ownOneofs ++ oneofs fields := by
  conv => lhs; unfold oneofs

/-- The groups of two lists of fields, one after the other. -/
theorem oneofs_append (l r : List Field) : oneofs (l ++ r) = oneofs l ++ oneofs r := by
  induction l with
  | nil => simp
  | cons f l ih => simp [oneofs_cons, ih]

end Field

end SchemaPage
