import SchemaPage.Proto.Symbol

/-!
# What names mean

A name in a file is resolved by the scopes around it, innermost first.  A simple name means the
first symbol of the right kind that the file reaches.  Of a dotted name the first part alone settles
the scope: the innermost one that has any symbol for it.

* `Names`: the symbols that are known in a file, and the files that it reaches.
* `Names.resolve?`: what a name means in a scope.
* `Names.written?`: what a full name means, reached or not.
-/

namespace SchemaPage
namespace Proto

/-- What names mean in a file. -/
structure Names where
  symbols : List Symbol
  /-- The files whose names are reached. -/
  reached : List String

namespace Names

/-- The symbol with a full name, if it is reached and admitted. -/
def symbol? (names : Names) (admitted : Symbol → Bool) (fullName : String) : Option Symbol :=
  names.symbols.find? fun s =>
    s.name == fullName && names.reached.contains s.file && admitted s

/-- Whether there is a symbol with a full name, in any file. -/
def isTaken (names : Names) (fullName : String) : Bool := names.symbols.any (·.name == fullName)

/-- What a name means in a scope. -/
def resolve? (names : Names) (admitted : Symbol → Bool) (scope name : String) : Option Symbol :=
  match absolute? name with
  | some fullName => names.symbol? admitted fullName
  | none =>
    match Text.split '.' name with
    | first :: _ :: _ =>
      ((scopes scope).find? fun s => names.isTaken (nameIn s first)).bind fun s =>
        names.symbol? admitted (nameIn s name)
    | _ => (scopes scope).findSome? fun s => names.symbol? admitted (nameIn s name)

/-- The symbol with a full name as it is written down in a linked file, in any file. -/
def written? (names : Names) (name : String) : Option Symbol :=
  names.symbols.find? (·.written == name)

/-- The message with a full name, in any file. -/
def message? (names : Names) (name : String) : Option MessageDescriptor :=
  (names.written? name).bind Symbol.message?

/-- The constants of the enum with a full name, in any file. -/
def constants (names : Names) (name : String) : List String :=
  match (names.written? name).bind Symbol.enumeration? with
  | some e => e.constants.map (·.name)
  | none => []

end Names

end Proto
end SchemaPage
