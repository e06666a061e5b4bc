import SchemaPage.Proto.Options

/-!
# Linking files

A file is linked when every name in it has been resolved and nothing in it clashes.  Types are
resolved first, and then the options of every declaration are held against them.  A name reaches
what the file itself declares, what the files that it imports declare, and what those pass on by
public imports.

* `Linked`: a linked file.
* `FileDescriptor.resolve?`: the file with the names of all types resolved.
* `FileDescriptor.optionsFit`: whether all options in a file fit.
* `FileDescriptor.link?`: link a file after those that it imports.
-/

namespace SchemaPage
namespace Proto

/-- A linked file. -/
structure Linked where
  file : FileDescriptor
  /-- The files whose names an import of this file reaches: itself, and what it passes on. -/
  exports : List String
  symbols : List Symbol

/-! ## Fields -/

/-- The field with its type resolved in a scope. -/
def FieldDescriptor.resolve? (names : Names) (scope : String) (f : FieldDescriptor) :
    Option FieldDescriptor :=
  if f.typeName = "" then some f
  else
    (names.resolve? Symbol.isType scope f.typeName).map fun s =>
      let kind : FieldKind :=
        if !s.isMessage then .enumeration else if f.kind = some .group then .group else .message
      { f with kind := some kind, typeName := s.written }

/-- The extension with its type and its message resolved in a scope.  Its number must be one that
the message leaves to extensions. -/
def FieldDescriptor.resolveExtension? (names : Names) (scope : String) (f : FieldDescriptor) :
    Option FieldDescriptor := do
  let f ← f.resolve? names scope
  let s ← names.resolve? Symbol.isMessage scope f.extendee
  let m ← s.message?
  guard (m.openRanges.any (·.has f.number))
  some { f with extendee := s.written }

/-- Whether all elements of a list are different. -/
def allDifferent {α : Type} [BEq α] : List α → Bool
  | [] => true
  | a :: rest => !rest.contains a && allDifferent rest

/-- The numbers that no field may have. -/
def forbiddenNumbers : NumberRange := ⟨19000, 19999⟩

/-- Whether the numbers of the fields of a message do not clash with one another or with the ranges
that are not theirs. -/
def numbersFit (fields : List FieldDescriptor) (ranges : List NumberRange) : Bool :=
  allDifferent (fields.map (·.number)) &&
    fields.all fun f => !(forbiddenNumbers :: ranges).any (·.has f.number)

/-- A name as it is compared in the third dialect. -/
def foldedName (name : String) : List Char :=
  (name.toList.filter (· != '_')).map Char.toLower

/-- The bytes of the name that a field has in other formats: the one that is set, or else the name
without underscores, with a capital after each of them. -/
def FieldDescriptor.otherName (f : FieldDescriptor) : List UInt8 :=
  let given := f.options.findSome? fun s =>
    match s.value with
    | .text bytes => if s.name == [⟨"json_name", false⟩] then some bytes else none
    | _ => none
  given.getD (String.ofList (camelCase false f.name.toList)).toUTF8.toList

/-- Whether the names of the fields of a message differ enough. -/
def namesFit (dialect : Dialect) (fields : List FieldDescriptor) : Bool :=
  allDifferent (fields.map (·.otherName)) &&
    (dialect == .proto2 || allDifferent (fields.map fun f => foldedName f.name))

/-! ## Declarations -/

/-- Whether nothing in the enum clashes. -/
def EnumDescriptor.fits (dialect : Dialect) (e : EnumDescriptor) : Bool :=
  let numbers := e.constants.map (·.number)
  !numbers.isEmpty &&
    (dialect == .proto2 || numbers.head? == some 0) &&
    (isSet "allow_alias" e.options || allDifferent numbers) &&
    numbers.all fun n => !e.reservedRanges.any (·.has n)

mutual

/-- The message in a scope with the names of all types resolved, if nothing in it clashes. -/
def MessageDescriptor.resolve? (names : Names) (dialect : Dialect) (scope : String) :
    MessageDescriptor → Option MessageDescriptor
  | m@⟨_, _, nested, _, _, _, _, _, _, _, _⟩ => do
    let own := nameIn scope m.name
    let fields ← m.fields.mapM (·.resolve? names own)
    let extensions ← m.extensions.mapM (·.resolveExtension? names own)
    let nested ← resolveAll? names dialect own nested
    guard (m.enums.all (·.fits dialect))
    guard (numbersFit fields (m.reservedRanges ++ m.openRanges))
    guard (namesFit dialect fields)
    some
      { m with
        fields, extensions, nested
        mapEntry := m.mapEntry || isSet "map_entry" m.options }

/-- The messages in a scope with the names of all types resolved. -/
def resolveAll? (names : Names) (dialect : Dialect) (scope : String) :
    List MessageDescriptor → Option (List MessageDescriptor)
  | [] => some []
  | m :: rest => do
    let m ← m.resolve? names dialect scope
    let rest ← resolveAll? names dialect scope rest
    some (m :: rest)

end

/-- The method in a scope with its messages resolved. -/
def MethodDescriptor.resolve? (names : Names) (scope : String) (m : MethodDescriptor) :
    Option MethodDescriptor := do
  let input ← names.resolve? Symbol.isMessage scope m.input
  let output ← names.resolve? Symbol.isMessage scope m.output
  some { m with input := input.written, output := output.written }

/-- The service in a scope with the messages of its methods resolved. -/
def ServiceDescriptor.resolve? (names : Names) (scope : String) (s : ServiceDescriptor) :
    Option ServiceDescriptor := do
  let methods ← s.methods.mapM (·.resolve? names (nameIn scope s.name))
  some { s with methods }

/-! ## Options -/

/-- Whether the options of a field fit.  The default value and the name for other formats are set
like options, once at most. -/
def FieldDescriptor.optionsFit (names : Names) (scope : String) (f : FieldDescriptor) : Bool :=
  let isDefault (s : OptionSetting) : Bool := s.name == [⟨"default", false⟩]
  let isOtherName (s : OptionSetting) : Bool := s.name == [⟨"json_name", false⟩]
  let fitsDefault (value : OptionValue) : Bool :=
    match f.kind, value with
    | some (.scalar s), value => value.isDefaultOf s
    | some .enumeration, .word w => (names.constants f.typeName).contains w
    | _, _ => false
  f.options.countP isDefault ≤ 1 &&
    f.options.countP isOtherName ≤ 1 &&
    (f.options.filter isDefault).all (fun s => fitsDefault s.value) &&
    Proto.optionsFit names scope "FieldOptions"
      (f.options.filter fun s => !isDefault s && !isOtherName s)

/-- Whether the options of an enum and of its constants fit. -/
def EnumDescriptor.optionsFit (names : Names) (scope : String) (e : EnumDescriptor) : Bool :=
  Proto.optionsFit names scope "EnumOptions" e.options &&
    e.constants.all fun c => Proto.optionsFit names scope "EnumValueOptions" c.options

mutual

/-- Whether the options of a message and of all that it holds fit. -/
def MessageDescriptor.optionsFit (names : Names) (scope : String) : MessageDescriptor → Bool
  | m@⟨_, _, nested, _, _, _, _, _, _, _, _⟩ =>
    let own := nameIn scope m.name
    Proto.optionsFit names own "MessageOptions" m.options &&
      m.fields.all (·.optionsFit names own) &&
      m.extensions.all (·.optionsFit names own) &&
      m.oneofs.all (fun o => Proto.optionsFit names own "OneofOptions" o.options) &&
      m.extensionRanges.all
        (fun r => Proto.optionsFit names own "ExtensionRangeOptions" r.options) &&
      m.enums.all (·.optionsFit names own) &&
      allOptionsFit names own nested

/-- Whether the options of messages and of all that they hold fit. -/
def allOptionsFit (names : Names) (scope : String) : List MessageDescriptor → Bool
  | [] => true
  | m :: rest => m.optionsFit names scope && allOptionsFit names scope rest

end

/-- Whether the options of a service and of its methods fit. -/
def ServiceDescriptor.optionsFit (names : Names) (scope : String) (s : ServiceDescriptor) : Bool :=
  let own := nameIn scope s.name
  Proto.optionsFit names own "ServiceOptions" s.options &&
    s.methods.all fun m => Proto.optionsFit names own "MethodOptions" m.options

/-! ## Files -/

namespace FileDescriptor

/-- What an import of the file reaches when it is linked after `pool`. -/
def exportsAfter (pool : List Linked) (path : String) : List String :=
  (pool.find? (·.file.name == path)).elim [] (·.exports)

/-- The files whose names the file reaches when it is linked after `pool`.  An import of what the
imports before it reach is refused. -/
def reachedAfter? (pool : List Linked) (f : FileDescriptor) : Option (List String) :=
  f.dependencies.foldlM (fun reached d =>
    if reached.contains d.path then none else some (reached ++ exportsAfter pool d.path)) [f.name]

/-- The file with the names of all types resolved, if nothing in it clashes. -/
def resolve? (names : Names) (f : FileDescriptor) : Option FileDescriptor := do
  let messages ← resolveAll? names f.dialect f.package f.messages
  let services ← f.services.mapM (·.resolve? names f.package)
  let extensions ← f.extensions.mapM (·.resolveExtension? names f.package)
  guard (f.enums.all (·.fits f.dialect))
  some { f with messages, services, extensions }

/-- Whether all options in the file fit. -/
def optionsFit (names : Names) (f : FileDescriptor) : Bool :=
  Proto.optionsFit names f.package "FileOptions" f.options &&
    allOptionsFit names f.package f.messages &&
    f.enums.all (·.optionsFit names f.package) &&
    f.services.all (·.optionsFit names f.package) &&
    f.extensions.all (·.optionsFit names f.package)

/-- The file with all its names resolved, after the files that it imports. -/
def link? (pool : List Linked) (f : FileDescriptor) : Option Linked := do
  let known := pool.flatMap (·.symbols)
  let own := f.symbols
  guard (!Symbol.anyClash own && own.all fun s => !known.any s.clashes)
  let reached ← f.reachedAfter? pool
  let file ← f.resolve? ⟨own ++ known, reached⟩
  let symbols := file.symbols
  guard (file.optionsFit ⟨symbols ++ known, reached⟩)
  some
    { file, symbols
      exports :=
        f.name :: (f.dependencies.filter (·.isPublic)).flatMap fun d => exportsAfter pool d.path }

end FileDescriptor

end Proto
end SchemaPage
