import SchemaPage.Graph
import SchemaPage.Schema.Scalar
import SchemaPage.Schema.Scope
import SchemaPage.Text.Alphanumeric
import SchemaPage.Text.Split

/-!
# Type names

A type name written inside a declaration stands for a scalar, or for the declaration that it
names from there.  A name with a leading dot is a full name.  Any other name is tried in the scope
of the declaration itself, then in each enclosing scope, and last at the root.

* `isTypeName`: the names that are well formed.
* `Graph.lookupFrom`: the search through the scopes around a full name.
* `Graph.resolve`: what a type name stands for, with `ResolveError` when it stands for nothing.
-/

namespace SchemaPage

/-- Why a type name stands for nothing. -/
inductive ResolveError where
  /-- The name is not well formed. -/
  | invalidName (typeName context : String)
  /-- No declaration answers to the name. -/
  | notFound (typeName context file : String)
  deriving DecidableEq, Repr

/-- The report of the error. -/
def ResolveError.message : ResolveError → String
  | invalidName typeName context =>
    "invalid type name '" ++ typeName ++ "' referenced from " ++ context
  | notFound typeName context file =>
    "type '" ++ typeName ++ "' referenced from " ++ context ++ " (" ++ file ++
      ") could not be resolved"

/-- What a type name stands for. -/
inductive ResolvedType where
  | scalar (scalar : Scalar)
  | declared (declaration : Declaration)
  deriving Repr

/-- Whether a type name is well formed: after at most one leading dot, one or more names
separated by dots, each of letters, digits and underscores. -/
def isTypeName (typeName : String) : Bool :=
  (Text.split '.' ((absolute? typeName).getD typeName)).all fun name =>
    name != "" && name.toList.all Text.isNameChar

namespace Graph

/-- The declaration that `name` means in `scope`: the one found in the innermost scope. -/
def lookupFrom (g : Graph) (scope name : String) : Option Declaration :=
  (scopes scope).findSome? fun s => g.lookup (nameIn s name)

/-- The declaration that a well-formed type name means inside `context`. -/
def find? (g : Graph) (context : Declaration) (typeName : String) : Option Declaration :=
  match absolute? typeName with
  | some fullName => g.lookup fullName
  | none => g.lookupFrom context.fullName typeName

/-- What `typeName` stands for when it is written inside `context`.  Scalars come first, so no
declaration hides them.  Nothing at all is an answer only of a tolerant graph. -/
def resolve (g : Graph) (context : Declaration) (typeName : String) :
    Except ResolveError (Option ResolvedType) :=
  match Scalar.ofKeyword? typeName with
  | some s => .ok (some (.scalar s))
  | none =>
    if isTypeName typeName then
      match g.find? context typeName with
      | some d => .ok (some (.declared d))
      | none =>
        if g.tolerant then .ok none
        else .error (.notFound typeName context.fullName context.path)
    else .error (.invalidName typeName context.fullName)

@[simp] theorem find?_withTolerance (g : Graph) (t : Bool) :
    (g.withTolerance t).find? = g.find? := rfl

end Graph

end SchemaPage
