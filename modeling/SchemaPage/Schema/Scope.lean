/-!
# Scopes

A name written inside a declaration is looked for in the scope of the declaration, then in each
scope around it, and last at the root.  A scope is named by a full name, and the root by the empty
text.

* `scopes`: the scopes around a full name, innermost first.
* `nameIn`: the full name that a name has in a scope.
-/

namespace SchemaPage

/-- The stretches at the start of a list of characters that end right before a dot, shortest
first. -/
def dotPrefixes : List Char → List (List Char)
  | [] => []
  | c :: cs => (if c = '.' then [[]] else []) ++ (dotPrefixes cs).map (c :: ·)

/-- The scopes around a full name, innermost first: the name itself, what is left of each of its
dots, and the root. -/
def scopes (fullName : String) : List String :=
  fullName :: (dotPrefixes fullName.toList).reverse.map String.ofList ++ [""]

/-- The full name that `name` has in `scope`. -/
def nameIn (scope name : String) : String := if scope = "" then name else scope ++ "." ++ name

/-- A name with a leading dot, without that dot. -/
def absolute? (typeName : String) : Option String :=
  match typeName.toList with
  | '.' :: rest => some (String.ofList rest)
  | _ => none

end SchemaPage
