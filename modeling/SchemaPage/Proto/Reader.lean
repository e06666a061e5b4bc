import SchemaPage.Proto.Outline
import SchemaPage.Proto.Phrase
import SchemaPage.Proto.Setting

/-!
# Reading schemas

From the outline of a text to the descriptor of its file.  Each declaration is read with the
comments on it, and these are put under the path that the declaration has in the one around it.

* `Located`: a declaration with the comments on it and inside it.
* `MessageDescriptor.addField`, `MessageDescriptor.addNested`: what a statement adds to a message.
* `FileDescriptor.parse?`: the descriptor of a text.

What is checked here concerns one statement at a time; whether names and numbers clash, and what
the names mean, is seen only when files are linked.
-/

namespace SchemaPage
namespace Proto

open Phrase

/-- A declaration with the comments on it and inside it. -/
structure Located (α : Type) where
  value : α
  locations : List Location

/-- The comments seen from the declaration around. -/
def Location.under (slot : Slot) (index : Nat) (l : Location) : Location :=
  { l with path := slot.number :: index :: l.path }

namespace Located

variable {α : Type}

/-- A declaration with nothing inside it. -/
def leaf (value : α) (leading trailing : Option String) : Located α :=
  ⟨value, [⟨[], leading, trailing⟩]⟩

/-- The comments seen from the declaration around. -/
def locationsUnder (slot : Slot) (index : Nat) (l : Located α) : List Location :=
  l.locations.map (Location.under slot index)

/-- The same comments on another declaration. -/
def withValue {β : Type} (l : Located α) (value : β) : Located β := ⟨value, l.locations⟩

end Located

/-! ## Fields -/

/-- Where a field stands. -/
inductive FieldPlace where
  | message
  | oneof
  | extension
  deriving DecidableEq, Repr

/-- The label that a field has by the one written, if it may be written there. -/
def FieldPlace.label? (place : FieldPlace) (dialect : Dialect) : Option Label → Option Label
  | none => if place = .oneof ∨ dialect = .proto3 then some .optional else none
  | some l =>
    if place = .oneof ∨ (l = .required ∧ dialect = .proto3) then none else some l

/-- A setting of an option of a field.  The default value and the name for other formats are set
like options; `admitted` tells which default values the field may have. -/
def fieldSetting (admitted : OptionValue → Bool) : Phrase OptionSetting := do
  let n ← optionName (← get).length
  symbol '='
  let isDefault := n == [⟨"default", false⟩]
  let value ← if isDefault then signedValue else optionValue
  guard (!isDefault || admitted value)
  guard (n != [⟨"json_name", false⟩] || value.fits .string)
  return ⟨n, value⟩

/-- The options in brackets after a field, if there are any. -/
def fieldSettings (dialect : Dialect) (label : Label) (kind : Option FieldKind) :
    Phrase (List OptionSetting) :=
  settingsOf (fieldSetting (defaultFits dialect label kind))

/-- A field that is a map. -/
structure MapPhrase where
  name : String
  key : Scalar
  valueKind : Option FieldKind
  valueName : String
  number : Int
  options : List OptionSetting

/-- A map, after the word `map`. -/
def mapPhrase (dialect : Dialect) : Phrase MapPhrase := do
  symbol '<'
  let keyName ← word
  match Scalar.ofKeyword? keyName with
  | none => failure
  | some key =>
    guard key.isKey
    symbol ','
    let (valueKind, valueName) ← type
    symbol '>'
    let name ← word
    symbol '='
    let number ← fieldNumber
    let options ← fieldSettings dialect .repeated none
    return { name, key, valueKind, valueName, number, options }

/-- A field with its label written in front of it. -/
def fieldPhrase (place : FieldPlace) (dialect : Dialect) : Phrase FieldDescriptor := do
  let written ← Phrase.label?
  match place.label? dialect written with
  | none => failure
  | some label =>
    let (kind, typeName) ← fieldType
    let name ← word
    symbol '='
    let number ← fieldNumber
    return {
        name, number, label, kind, typeName
        proto3Optional := dialect = .proto3 ∧ written = some .optional
        options := ← fieldSettings dialect label kind }

/-- The header of a group, with its label written in front of it.  Groups are of the second dialect
alone, and their names start with a capital. -/
def groupPhrase (place : FieldPlace) (dialect : Dialect) : Phrase FieldDescriptor := do
  guard (dialect = .proto2)
  match place.label? dialect (← Phrase.label?) with
  | none => failure
  | some label =>
    keyword "group"
    let name ← word
    guard (name.toList.head?.any Char.isUpper)
    symbol '='
    let number ← fieldNumber
    return {
        name := name.toLower, number, label, kind := some .group, typeName := name
        options := ← fieldSettings dialect label (some .group) }

/-- The name of the message for the entries of a map: the name of the field without underscores,
each word of it with a capital. -/
def entryName (field : String) : String :=
  String.ofList (camelCase true field.toList) ++ "Entry"

/-- The message for the entries of a map. -/
def MapPhrase.entry (m : MapPhrase) : MessageDescriptor :=
  { name := entryName m.name
    fields :=
      [{ name := "key", number := 1, kind := some (.scalar m.key) },
        { name := "value", number := 2, kind := m.valueKind, typeName := m.valueName }]
    mapEntry := true }

/-- The field for a map. -/
def MapPhrase.field (m : MapPhrase) : FieldDescriptor :=
  { name := m.name, number := m.number, label := .repeated, kind := some .message
    typeName := entryName m.name, options := m.options }

/-! ## What statements add to a message -/

namespace MessageDescriptor

/-- The message with one more field. -/
def addField (l : Located MessageDescriptor) (f : Located FieldDescriptor) :
    Located MessageDescriptor :=
  let m := l.value
  { value := { m with fields := m.fields ++ [f.value] }
    locations := l.locations ++ f.locationsUnder .messageField m.fields.length }

/-- The message with one more message inside. -/
def addNested (l : Located MessageDescriptor) (n : Located MessageDescriptor) :
    Located MessageDescriptor :=
  let m := l.value
  { value := { m with nested := m.nested ++ [n.value] }
    locations := l.locations ++ n.locationsUnder .messageNested m.nested.length }

/-- The message with one more enum inside. -/
def addEnum (l : Located MessageDescriptor) (e : Located EnumDescriptor) :
    Located MessageDescriptor :=
  let m := l.value
  { value := { m with enums := m.enums ++ [e.value] }
    locations := l.locations ++ e.locationsUnder .messageEnum m.enums.length }

/-- The message with one more group of fields. -/
def addOneof (l : Located MessageDescriptor) (o : Located OneofDescriptor) :
    Located MessageDescriptor :=
  let m := l.value
  { value := { m with oneofs := m.oneofs ++ [o.value] }
    locations := l.locations ++ o.locationsUnder .messageOneof m.oneofs.length }

/-- The message with one more option on the group at a position. -/
def setOneof (l : Located MessageDescriptor) (index : Nat) (s : OptionSetting) :
    Located MessageDescriptor :=
  let m := l.value
  l.withValue
    { m with oneofs := m.oneofs.modify index fun o => { o with options := o.options ++ [s] } }

/-- The message with every field that is marked `optional` in a group of its own, after the groups
that are written. -/
def withOwnGroups (m : MessageDescriptor) : MessageDescriptor :=
  let step (acc : List FieldDescriptor × List OneofDescriptor) (f : FieldDescriptor) :
      List FieldDescriptor × List OneofDescriptor :=
    if f.proto3Optional then
      (acc.1 ++ [{ f with oneofIndex := some acc.2.length }], acc.2 ++ [{ name := "_" ++ f.name }])
    else (acc.1 ++ [f], acc.2)
  let (fields, oneofs) := m.fields.foldl step ([], m.oneofs)
  { m with fields, oneofs }

end MessageDescriptor

/-- The setting in an `option` statement, after that word. -/
def optionLine? (tokens : List Token) : Option OptionSetting := whole? optionSetting tokens

/-- Whether some tokens end with a range that has two ends. -/
def endsWithRange (tokens : List Token) : Bool :=
  (tokens.reverse.takeWhile (· != .symbol ',')).contains (.word "to")

/-- The ranges of an `extensions` statement, after that word.  Options may follow them, if the last
range has two ends. -/
def extensionRanges? (tokens : List Token) : Option ExtensionRanges := do
  let settings := tokens.dropWhile (· != .symbol '[')
  let numbers := tokens.takeWhile (· != .symbol '[')
  guard (settings.isEmpty || endsWithRange numbers)
  let options ← whole? optionSettings settings
  let ranges ← fieldRanges? numbers
  some { ranges, options }

/-- Whether a list starts with a quoted text. -/
def startsWithText : List Token → Bool
  | .text _ :: _ => true
  | _ => false

/-- A statement of a message that ends with a semicolon. -/
def messageLine? (dialect : Dialect) (l : Located MessageDescriptor)
    (leading trailing : Option String) (tokens : List Token) :
    Option (Located MessageDescriptor) :=
  let m := l.value
  match tokens with
  | [] => some l
  | .word "option" :: rest => do
    let s ← optionLine? rest
    some (l.withValue { m with options := m.options ++ [s] })
  | .word "reserved" :: rest =>
    if startsWithText rest then do
      let names ← reservedNames? rest
      some (l.withValue { m with reservedNames := m.reservedNames ++ names })
    else do
      let ranges ← fieldRanges? rest
      some (l.withValue { m with reservedRanges := m.reservedRanges ++ ranges })
  | .word "extensions" :: rest => do
    let ranges ← extensionRanges? rest
    some (l.withValue { m with extensionRanges := m.extensionRanges ++ [ranges] })
  | .word "message" :: _ | .word "enum" :: _ | .word "extend" :: _ | .word "oneof" :: _ => none
  | .word "map" :: .symbol '<' :: rest => do
    let p ← whole? (mapPhrase dialect) (.symbol '<' :: rest)
    let l := MessageDescriptor.addNested l ⟨p.entry, []⟩
    some (MessageDescriptor.addField l (.leaf p.field leading trailing))
  | tokens => do
    let f ← whole? (fieldPhrase .message dialect) tokens
    some (MessageDescriptor.addField l (.leaf f leading trailing))

/-! ## Enums -/

/-- A constant. -/
def constantPhrase : Phrase ConstantDescriptor := do
  let name ← word
  symbol '='
  let number ← constantNumber
  return { name, number, options := ← optionSettings }

/-- A statement of an enum. -/
def enumLine? (l : Located EnumDescriptor) (leading trailing : Option String)
    (tokens : List Token) : Option (Located EnumDescriptor) :=
  let e := l.value
  match tokens with
  | [] => some l
  | .word "option" :: rest => do
    let s ← optionLine? rest
    some (l.withValue { e with options := e.options ++ [s] })
  | .word "reserved" :: rest =>
    if startsWithText rest then do
      let names ← reservedNames? rest
      some (l.withValue { e with reservedNames := e.reservedNames ++ names })
    else do
      let ranges ← constantRanges? rest
      some (l.withValue { e with reservedRanges := e.reservedRanges ++ ranges })
  | tokens => do
    let c ← whole? constantPhrase tokens
    let constant := Located.leaf c leading trailing
    some
      { value := { e with constants := e.constants ++ [c] }
        locations := l.locations ++ constant.locationsUnder .enumConstant e.constants.length }

/-- The statements of an enum. -/
def enumBody? (l : Located EnumDescriptor) :
    List Statement → List Remark → Option (Located EnumDescriptor)
  | [], _ => some l
  | .simple before tokens :: rest, last => do
    let leading := (Statement.opening (.simple before tokens :: rest) last).leading
    let l ← enumLine? l leading (Statement.opening rest last).trailing tokens
    enumBody? l rest last
  | .block .. :: _, _ => none

/-! ## Services -/

/-- The type of a request or of a response, in brackets; it may be a stream. -/
def messageType : Phrase String := do
  symbol '('
  let _ ← keyword? "stream"
  let n ← typeName
  symbol ')'
  return n

/-- The header of a method, after the word `rpc`. -/
def methodPhrase : Phrase MethodDescriptor := do
  let name ← word
  let input ← messageType
  keyword "returns"
  let output ← messageType
  return { name, input, output }

/-- The options in the body of a method. -/
def methodOptions? : List Statement → Option (List OptionSetting)
  | [] => some []
  | .simple _ [] :: rest => methodOptions? rest
  | .simple _ (.word "option" :: tokens) :: rest => do
    let s ← optionLine? tokens
    (methodOptions? rest).map (s :: ·)
  | _ :: _ => none

/-- The service with one more method. -/
def ServiceDescriptor.addMethod (l : Located ServiceDescriptor) (m : Located MethodDescriptor) :
    Located ServiceDescriptor :=
  let s := l.value
  { value := { s with methods := s.methods ++ [m.value] }
    locations := l.locations ++ m.locationsUnder .serviceMethod s.methods.length }

/-- The statements of a service. -/
def serviceBody? (l : Located ServiceDescriptor) :
    List Statement → List Remark → Option (Located ServiceDescriptor)
  | [], _ => some l
  | s :: rest, last => do
    let leading := (Statement.opening (s :: rest) last).leading
    let trailing := (Statement.opening rest last).trailing
    let l ← match s with
      | .simple _ [] => some l
      | .simple _ (.word "option" :: tokens) => do
        let o ← optionLine? tokens
        some (l.withValue { l.value with options := l.value.options ++ [o] })
      | .simple _ (.word "rpc" :: tokens) => do
        let m ← whole? methodPhrase tokens
        some (ServiceDescriptor.addMethod l (.leaf m leading trailing))
      | .block _ (.word "rpc" :: tokens) body _ => do
        let m ← whole? methodPhrase tokens
        let options ← methodOptions? body
        some (ServiceDescriptor.addMethod l (.leaf { m with options } leading trailing))
      | _ => none
    serviceBody? l rest last

/-! ## Messages -/

/-- Extensions, with the messages of those that are groups. -/
structure Extensions where
  fields : List FieldDescriptor
  groups : List (Located MessageDescriptor)

/-- The message with extensions declared inside it. -/
def MessageDescriptor.addExtensions (l : Located MessageDescriptor) (e : Extensions) :
    Located MessageDescriptor :=
  let l := e.groups.foldl addNested l
  l.withValue { l.value with extensions := l.value.extensions ++ e.fields }

mutual

/-- The statements of a message. -/
def messageBody? (dialect : Dialect) (l : Located MessageDescriptor) :
    List Statement → List Remark → Option (Located MessageDescriptor)
  | [], _ => some (l.withValue l.value.withOwnGroups)
  | s :: rest, last => do
    let leading := (Statement.opening (s :: rest) last).leading
    let trailing := (Statement.opening rest last).trailing
    let l ← messageStatement? dialect l leading trailing s
    messageBody? dialect l rest last

/-- A statement of a message. -/
def messageStatement? (dialect : Dialect) (l : Located MessageDescriptor)
    (leading trailing : Option String) : Statement → Option (Located MessageDescriptor)
  | .simple _ tokens => messageLine? dialect l leading trailing tokens
  | .block _ header body last =>
    let inner := (Statement.opening body last).trailing
    match header with
    | [.word "message", .word name] => do
      let n ← messageBody? dialect (.leaf { name } leading inner) body last
      some (MessageDescriptor.addNested l n)
    | [.word "enum", .word name] => do
      let e ← enumBody? (.leaf { name } leading inner) body last
      some (MessageDescriptor.addEnum l e)
    | .word "extend" :: extendee => do
      let extendee ← whole? typeName extendee
      let e ← extendBody? dialect extendee body last
      some (MessageDescriptor.addExtensions l e)
    | [.word "oneof", .word name] => do
      let index := l.value.oneofs.length
      let count := l.value.fields.length
      let l := MessageDescriptor.addOneof l (.leaf { name } leading inner)
      let l ← oneofBody? dialect index l body last
      if l.value.fields.length = count then none else some l
    | header => do
      let f ← whole? (groupPhrase .message dialect) header
      let n ← messageBody? dialect (.leaf { name := f.typeName } leading inner) body last
      some (MessageDescriptor.addField (MessageDescriptor.addNested l n) ⟨f, []⟩)

/-- The statements of a group of fields at a position; its fields belong to the message around. -/
def oneofBody? (dialect : Dialect) (index : Nat) (l : Located MessageDescriptor) :
    List Statement → List Remark → Option (Located MessageDescriptor)
  | [], _ => some l
  | s :: rest, last => do
    let leading := (Statement.opening (s :: rest) last).leading
    let trailing := (Statement.opening rest last).trailing
    let l ← oneofStatement? dialect index l leading trailing s
    oneofBody? dialect index l rest last

/-- A statement of a group of fields. -/
def oneofStatement? (dialect : Dialect) (index : Nat) (l : Located MessageDescriptor)
    (leading trailing : Option String) : Statement → Option (Located MessageDescriptor)
  | .simple _ [] => some l
  | .simple _ (.word "option" :: tokens) =>
    (optionLine? tokens).map (MessageDescriptor.setOneof l index)
  | .simple _ tokens => do
    let f ← whole? (fieldPhrase .oneof dialect) tokens
    let f := { f with oneofIndex := some index }
    some (MessageDescriptor.addField l (.leaf f leading trailing))
  | .block _ header body last => do
    let f ← whole? (groupPhrase .oneof dialect) header
    let inner := (Statement.opening body last).trailing
    let n ← messageBody? dialect (.leaf { name := f.typeName } leading inner) body last
    let f := { f with oneofIndex := some index }
    some (MessageDescriptor.addField (MessageDescriptor.addNested l n) ⟨f, []⟩)

/-- The statements of an extension. -/
def extendBody? (dialect : Dialect) (extendee : String) :
    List Statement → List Remark → Option Extensions
  | [], _ => some ⟨[], []⟩
  | s :: rest, last => do
    let leading := (Statement.opening (s :: rest) last).leading
    let first ← extendStatement? dialect extendee leading s
    let others ← extendBody? dialect extendee rest last
    some ⟨first.fields ++ others.fields, first.groups ++ others.groups⟩

/-- A statement of an extension. -/
def extendStatement? (dialect : Dialect) (extendee : String) (leading : Option String) :
    Statement → Option Extensions
  | .simple _ [] => some ⟨[], []⟩
  | .simple _ tokens => do
    let f ← whole? (fieldPhrase .extension dialect) tokens
    some ⟨[{ f with extendee }], []⟩
  | .block _ header body last => do
    let f ← whole? (groupPhrase .extension dialect) header
    let inner := (Statement.opening body last).trailing
    let n ← messageBody? dialect (.leaf { name := f.typeName } leading inner) body last
    some ⟨[{ f with extendee }], [n]⟩

end

/-! ## Files -/

namespace FileDescriptor

/-- The file with one more message. -/
def addMessage (f : FileDescriptor) (m : Located MessageDescriptor) : FileDescriptor :=
  { f with
    messages := f.messages ++ [m.value]
    locations := f.locations ++ m.locationsUnder .fileMessage f.messages.length }

/-- The file with one more enum. -/
def addEnum (f : FileDescriptor) (e : Located EnumDescriptor) : FileDescriptor :=
  { f with
    enums := f.enums ++ [e.value]
    locations := f.locations ++ e.locationsUnder .fileEnum f.enums.length }

/-- The file with one more service. -/
def addService (f : FileDescriptor) (s : Located ServiceDescriptor) : FileDescriptor :=
  { f with
    services := f.services ++ [s.value]
    locations := f.locations ++ s.locationsUnder .fileService f.services.length }

end FileDescriptor

/-- Whether a text is a path by which a file may be imported: all that stands between its slashes is
a name, and it has no backslash. -/
def isImportPath (path : String) : Bool :=
  !path.toList.contains '\\' &&
    (Text.split '/' path).all fun part => part != "" && part != "." && part != ".."

/-- An import, after that word. -/
def importPhrase : Phrase Dependency := do
  let isPublic ← keyword? "public"
  let _ ← if isPublic then pure false else keyword? "weak"
  let path ← string
  guard (isImportPath path)
  return ⟨path, isPublic⟩

/-- A statement of a file that ends with a semicolon. -/
def fileLine? (f : FileDescriptor) : List Token → Option FileDescriptor
  | [] => some f
  | .word "import" :: tokens => do
    let d ← whole? importPhrase tokens
    some { f with dependencies := f.dependencies ++ [d] }
  | .word "package" :: tokens => do
    let package ← whole? name tokens
    if f.package = "" then some { f with package } else none
  | .word "option" :: tokens => do
    let s ← optionLine? tokens
    some { f with options := f.options ++ [s] }
  | _ => none

/-- A statement of a file. -/
def fileStatement? (f : FileDescriptor) (leading : Option String) :
    Statement → Option FileDescriptor
  | .simple _ tokens => fileLine? f tokens
  | .block _ header body last =>
    let inner := (Statement.opening body last).trailing
    match header with
    | [.word "message", .word name] => do
      f.addMessage (← messageBody? f.dialect (.leaf { name } leading inner) body last)
    | [.word "enum", .word name] => do
      f.addEnum (← enumBody? (.leaf { name } leading inner) body last)
    | [.word "service", .word name] => do
      f.addService (← serviceBody? (.leaf { name } leading inner) body last)
    | .word "extend" :: extendee => do
      let extendee ← whole? typeName extendee
      let e ← extendBody? f.dialect extendee body last
      let f := e.groups.foldl FileDescriptor.addMessage f
      some { f with extensions := f.extensions ++ e.fields }
    | _ => none

/-- The statements of a file, the first of them with the given comment. -/
def fileBody? (f : FileDescriptor) (leading : Option String) :
    List Statement → List Remark → Option FileDescriptor
  | [], _ => some f
  | s :: rest, last => do
    let f ← fileStatement? f leading s
    fileBody? f (Statement.opening rest last).leading rest last

/-- The dialect that a first statement names. -/
def dialectPhrase : Phrase Dialect := do
  symbol '='
  match ← string with
  | "proto2" => return .proto2
  | "proto3" => return .proto3
  | _ => failure

namespace FileDescriptor

/-- The descriptor that an outline describes, under the logical name `name`. -/
def ofOutline? (name : String) (o : Outline) : Option FileDescriptor :=
  match o.statements with
  | .simple _ (.word "syntax" :: tokens) :: rest => do
    let dialect ← whole? dialectPhrase tokens
    fileBody? { name, dialect } (Statement.opening rest o.last).leading rest o.last
  | statements =>
    let leading := match statements with
      | [] => none
      | s :: _ => (Remarks.attachFirst false s.before).leading
    fileBody? { name } leading statements o.last

/-- The descriptor that a text describes, under the logical name `name`. -/
def parse? (name text : String) : Option FileDescriptor := do
  ofOutline? name (← Outline.ofLexemes? (← lex? text))

end FileDescriptor

end Proto
end SchemaPage
