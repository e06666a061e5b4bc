import SchemaPage.Proto.Aggregate
import SchemaPage.Proto.Names
import SchemaPage.Proto.Setting
import SchemaPage.Proto.WellKnown

/-!
# Whether options fit

The options of a declaration are the fields of a message: those that are built in, and the
extensions of that message.  The name of an option is a way through fields that are messages to the
field that is set.  Options fit when every way leads to a field, every value is one of its type, and
nothing that holds one value is set twice.

* `FieldPath`: a way through fields, by their numbers.
* `Aggregate.fieldsFit?`: whether a value between braces fits, with all that it sets.
* `optionsFit`: whether the options of a declaration fit.
-/

namespace SchemaPage
namespace Proto

/-- A way from a message through its fields, by their numbers. -/
abbrev FieldPath := List Int

/-- Whether some ways lead to a field or through it. -/
def isReached (set : List FieldPath) (path : FieldPath) : Bool := set.any (path.isPrefixOf ·)

/-- The names that are known to options: those of a file, and those of the well-known options. -/
def Names.withOptions (names : Names) : Names :=
  { names with symbols := names.symbols ++ WellKnown.descriptorSymbols }

/-! ## Values between braces -/

/-- The words for what is no number between others, in any case. -/
def boundaryNames : List String := ["inf", "infinity", "nan", "-inf", "-infinity", "-nan"]

/-- Whether a value inside braces is one of a scalar type. -/
def OptionValue.fitsInside (value : OptionValue) (s : Scalar) : Bool :=
  match s, value with
  | .bool, .word w => ["true", "True", "t", "false", "False", "f"].contains w
  | .bool, .natural n => n ≤ 1
  | .double, .word w | .float, .word w => boundaryNames.contains w.toLower
  | s, value => value.isDefaultOf s

/-- Whether a value inside braces is one of an enum with some constants: a constant, or any number
in 32 bits. -/
def OptionValue.fitsEnum (value : OptionValue) (constants : List String) : Bool :=
  match value with
  | .word w => constants.contains w
  | value => value.fits .int32

namespace MessageDescriptor

/-- The field that a value between braces calls by a name.  A group goes by the name of its
message. -/
def calledField? (m : MessageDescriptor) (name : String) : Option FieldDescriptor :=
  m.fields.find? fun f =>
    if f.kind = some .group then (Text.split '.' f.typeName).getLast? == some name
    else f.name == name

/-- Whether another field of the group that a field belongs to is set. -/
def hasSibling (m : MessageDescriptor) (f : FieldDescriptor) (set : List FieldPath) : Bool :=
  f.oneofIndex.isSome &&
    m.fields.any fun g => g.oneofIndex == f.oneofIndex && isReached set [g.number]

end MessageDescriptor

/-- The field that a value of a message calls so.  The content of a message of any type is taken for
a field of that type. -/
def AggregateName.field? (names : Names) (messageName : String) (m : MessageDescriptor) :
    AggregateName → Option FieldDescriptor
  | .field name => m.calledField? name
  | .extension fullName => do
    let s ← names.written? ("." ++ fullName)
    (s.extension?).filter (·.extendee == messageName)
  | .content fullName =>
    if messageName = WellKnown.full "Any" then
      some { name := "", number := 1, kind := some .message, typeName := "." ++ fullName }
    else none

mutual

/-- What fields of a message set, after the ways in `set`, if they fit. -/
def Aggregate.fieldsFit? (names : Names) (messageName : String) (m : MessageDescriptor)
    (set : List FieldPath) : List (AggregateName × Aggregate) → Option (List FieldPath)
  | [] => some set
  | (name, value) :: rest => do
    let f ← name.field? names messageName m
    if f.label = .repeated then
      if value.elementsFit names f then Aggregate.fieldsFit? names messageName m set rest else none
    else if isReached set [f.number] || m.hasSibling f set then none
    else
      let inside ← value.fit? names f
      Aggregate.fieldsFit? names messageName m (set ++ inside.map (f.number :: ·)) rest

/-- What a value of a field sets inside it, if it is one of its type. -/
def Aggregate.fit? (names : Names) (f : FieldDescriptor) : Aggregate → Option (List FieldPath)
  | .plain value =>
    match f.kind with
    | some (.scalar s) => if value.fitsInside s then some [[]] else none
    | some .enumeration => if value.fitsEnum (names.constants f.typeName) then some [[]] else none
    | _ => none
  | .message fields =>
    match f.kind, names.message? f.typeName with
    | some .message, some m | some .group, some m =>
      Aggregate.fieldsFit? names f.typeName m [[]] fields
    | _, _ => none
  | .list _ => none

/-- Whether a value adds elements to a field that holds any number of them. -/
def Aggregate.elementsFit (names : Names) (f : FieldDescriptor) : Aggregate → Bool
  | .list values => Aggregate.allFit names f values
  | .plain value => ((Aggregate.plain value).fit? names f).isSome
  | .message fields => ((Aggregate.message fields).fit? names f).isSome

/-- Whether all values of a list are of the type of a field. -/
def Aggregate.allFit (names : Names) (f : FieldDescriptor) : List Aggregate → Bool
  | [] => true
  | v :: rest => (v.fit? names f).isSome && Aggregate.allFit names f rest

end

/-! ## Settings -/

/-- The field that a part of the name of an option means in a scope. -/
def OptionPart.field? (names : Names) (scope messageName : String) (m : MessageDescriptor)
    (part : OptionPart) : Option FieldDescriptor :=
  if part.isExtension then do
    let s ← names.resolve? Symbol.isExtension scope part.name
    (s.extension?).filter (·.extendee == messageName)
  else m.fields.find? (·.name == part.name)

/-- What the value of an option sets inside its field, if it is one of its type. -/
def OptionValue.fit? (names : Names) (f : FieldDescriptor) (value : OptionValue) :
    Option (List FieldPath) :=
  match f.kind, value with
  | some (.scalar s), value => if value.fits s then some [[]] else none
  | some .enumeration, .word w =>
    if (names.constants f.typeName).contains w then some [[]] else none
  | some .message, .braces tokens | some .group, .braces tokens => do
    let fields ← Aggregate.ofTokens? tokens
    (Aggregate.message fields).fit? names f
  | _, _ => none

/-- What is set after a setting: the value is put at the end of a way that starts at `path`, in a
message, after the ways in `set`. -/
def settingFits? (names : Names) (scope : String) (value : OptionValue) (set : List FieldPath) :
    (messageName : String) → (path : FieldPath) → List OptionPart → Option (List FieldPath)
  | _, _, [] => none
  | messageName, path, part :: parts => do
    let m ← names.message? messageName
    let f ← part.field? names scope messageName m
    let path := path ++ [f.number]
    if parts.isEmpty then
      if f.label = .repeated then (value.fit? names f).map fun _ => set
      else
        guard (!isReached set path)
        (value.fit? names f).map fun inside => set ++ inside.map (path ++ ·)
    else
      guard (f.label != .repeated)
      settingFits? names scope value set f.typeName path parts

/-- Whether the options of a declaration in a scope fit.  `optionsMessage` is the message that has
the options of such a declaration as its fields. -/
def optionsFit (names : Names) (scope optionsMessage : String) (settings : List OptionSetting) :
    Bool :=
  let step (set : List FieldPath) (s : OptionSetting) : Option (List FieldPath) :=
    settingFits? names.withOptions scope s.value set (WellKnown.full optionsMessage) [] s.name
  (settings.foldlM step []).isSome

/-- Whether the option is set to true. -/
def isSet (name : String) (settings : List OptionSetting) : Bool :=
  settings.any fun s => s.name == [⟨name, false⟩] && s.value == .word "true"

end Proto
end SchemaPage
