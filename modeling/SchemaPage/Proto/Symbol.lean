import SchemaPage.Proto.Descriptor
import SchemaPage.Schema.Scope
import SchemaPage.Text.Split

/-!
# Symbols

Every name that a file declares is a symbol: its package and the packages around that, its messages,
enums and services, and what stands inside them.  The constants of an enum stand beside the enum
and not inside it.

* `FileDescriptor.symbols`: the symbols of a file.
* `Symbol.clashes`: two symbols that cannot stand side by side.
-/

namespace SchemaPage
namespace Proto

/-- What a symbol names. -/
inductive SymbolKind where
  | package
  | message (message : MessageDescriptor)
  | enumeration (enumeration : EnumDescriptor)
  | extension (field : FieldDescriptor)
  /-- Anything that is never referred to by its full name. -/
  | member
  deriving Repr

/-- A name that a file declares. -/
structure Symbol where
  /-- The full name, without a leading dot. -/
  name : String
  kind : SymbolKind
  /-- The logical name of the file. -/
  file : String
  deriving Repr

namespace Symbol

/-- Whether the symbol is a package. -/
def isPackage (s : Symbol) : Bool :=
  match s.kind with
  | .package => true
  | _ => false

/-- Whether two symbols cannot stand side by side.  A package may be declared again. -/
def clashes (s t : Symbol) : Bool := s.name == t.name && !(s.isPackage && t.isPackage)

/-- The message that the symbol names, if it names one. -/
def message? (s : Symbol) : Option MessageDescriptor :=
  match s.kind with
  | .message m => some m
  | _ => none

/-- The enum that the symbol names, if it names one. -/
def enumeration? (s : Symbol) : Option EnumDescriptor :=
  match s.kind with
  | .enumeration e => some e
  | _ => none

/-- The extension that the symbol names, if it names one. -/
def extension? (s : Symbol) : Option FieldDescriptor :=
  match s.kind with
  | .extension f => some f
  | _ => none

/-- Whether the symbol is a message. -/
def isMessage (s : Symbol) : Bool := s.message?.isSome

/-- Whether the symbol is a message or an enum. -/
def isType (s : Symbol) : Bool := s.isMessage || s.enumeration?.isSome

/-- Whether the symbol is an extension. -/
def isExtension (s : Symbol) : Bool := s.extension?.isSome

/-- The full name as it is written down in a linked file. -/
def written (s : Symbol) : String := "." ++ s.name

/-- Whether a symbol clashes with one before it in the list. -/
def anyClash : List Symbol → Bool
  | [] => false
  | s :: rest => rest.any s.clashes || anyClash rest

end Symbol

/-- The members that some names give in a scope. -/
def memberSymbols (file scope : String) (names : List String) : List Symbol :=
  names.map fun name => ⟨nameIn scope name, .member, file⟩

/-- The symbols of an enum in a scope. -/
def EnumDescriptor.symbols (file scope : String) (e : EnumDescriptor) : List Symbol :=
  ⟨nameIn scope e.name, .enumeration e, file⟩ ::
    memberSymbols file scope (e.constants.map (·.name))

/-- The symbols of extensions in a scope. -/
def extensionSymbols (file scope : String) (fields : List FieldDescriptor) : List Symbol :=
  fields.map fun f => ⟨nameIn scope f.name, .extension f, file⟩

mutual

/-- The symbols of a message in a scope.  A group that a field has to itself is a symbol, too. -/
def MessageDescriptor.symbols (file scope : String) : MessageDescriptor → List Symbol
  | m@⟨_, _, nested, _, _, _, _, _, _, _, _⟩ =>
    let own := nameIn scope m.name
    ⟨own, .message m, file⟩ ::
      memberSymbols file own (m.fields.map (·.name)) ++
      memberSymbols file own (m.oneofs.map (·.name)) ++
      extensionSymbols file own m.extensions ++
      m.enums.flatMap (EnumDescriptor.symbols file own) ++
      messagesSymbols file own nested

/-- The symbols of some messages in a scope. -/
def messagesSymbols (file scope : String) : List MessageDescriptor → List Symbol
  | [] => []
  | m :: rest => m.symbols file scope ++ messagesSymbols file scope rest

end

/-- The symbols of a service in a scope. -/
def ServiceDescriptor.symbols (file scope : String) (s : ServiceDescriptor) : List Symbol :=
  let own := nameIn scope s.name
  ⟨own, .member, file⟩ :: memberSymbols file own (s.methods.map (·.name))

/-- The symbols of a file.  Of a package `a.b` both `a` and `a.b` are symbols. -/
def FileDescriptor.symbols (f : FileDescriptor) : List Symbol :=
  let packages :=
    if f.package = "" then []
    else (scopes f.package).filter (· != "") |>.map fun name => ⟨name, .package, f.name⟩
  packages ++
    messagesSymbols f.name f.package f.messages ++
    f.enums.flatMap (EnumDescriptor.symbols f.name f.package) ++
    f.services.flatMap (ServiceDescriptor.symbols f.name f.package) ++
    extensionSymbols f.name f.package f.extensions

end Proto
end SchemaPage
