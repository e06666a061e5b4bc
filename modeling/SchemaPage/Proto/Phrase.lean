import SchemaPage.Proto.Descriptor
import SchemaPage.Proto.Token
import SchemaPage.Text.Split

/-!
# Phrases

The parts that statements are made of: names, numbers, ranges and options.  A phrase is read from
the front of a list of tokens; `Phrase.whole?` reads a list to its end.

* `typeName`: a dotted name that may start with a dot.
* `fieldRanges?`, `constantRanges?`, `reservedNames?`: what `reserved` and `extensions` list.
* `optionSettings`: the options in brackets after a declaration.
* `fieldType`: the type of a field.
-/

namespace SchemaPage
namespace Proto

/-- A reader of tokens. -/
abbrev Phrase (α : Type) := StateT (List Token) Option α

namespace Phrase

variable {α : Type}

/-- Read a list of tokens to its end. -/
def whole? (p : Phrase α) (tokens : List Token) : Option α :=
  match p.run tokens with
  | some (a, []) => some a
  | _ => none

/-- The next token, which stays. -/
def peek : Phrase (Option Token) := do return (← get).head?

/-- A word. -/
def word : Phrase String := fun tokens =>
  match tokens with
  | .word w :: rest => some (w, rest)
  | _ => none

/-- A fixed symbol. -/
def symbol (c : Char) : Phrase Unit := fun tokens =>
  match tokens with
  | .symbol d :: rest => if d = c then some ((), rest) else none
  | _ => none

/-- Whether the fixed symbol comes next; it is read if it does. -/
def symbol? (c : Char) : Phrase Bool := fun tokens =>
  match tokens with
  | .symbol d :: rest => if d = c then some (true, rest) else some (false, tokens)
  | _ => some (false, tokens)

/-- Whether the fixed word comes next; it is read if it does. -/
def keyword? (w : String) : Phrase Bool := fun tokens =>
  match tokens with
  | .word v :: rest => if v = w then some (true, rest) else some (false, tokens)
  | _ => some (false, tokens)

/-- A fixed word. -/
def keyword (w : String) : Phrase Unit := do
  guard (← keyword? w)

/-- A number. -/
def int : Phrase Nat := fun tokens =>
  match tokens with
  | .int n :: rest => some (n, rest)
  | _ => none

/-- A number with an optional minus sign. -/
def signed : Phrase Int := do
  if ← symbol? '-' then return -(← int)
  return (← int)

/-- The quoted texts at the front. -/
def bytes : List Token → List UInt8 × List Token
  | .text b :: rest =>
    let (more, rest) := bytes rest
    (b ++ more, rest)
  | rest => ([], rest)

/-- One or more quoted texts, put together. -/
def text : Phrase (List UInt8) := fun tokens =>
  match tokens with
  | .text _ :: _ => some (bytes tokens)
  | _ => none

/-- One or more quoted texts that make a string. -/
def string : Phrase String := do
  let b ← text
  match String.fromUTF8? b.toByteArray with
  | some s => return s
  | none => failure

/-! ## Names -/

/-- The dotted name at the front. -/
def dottedName : List Token → Option (String × List Token)
  | .word w :: .symbol '.' :: rest =>
    (dottedName rest).map fun (name, rest) => (w ++ "." ++ name, rest)
  | .word w :: rest => some (w, rest)
  | _ => none

/-- A dotted name. -/
def name : Phrase String := dottedName

/-- A dotted name that may start with a dot. -/
def typeName : Phrase String := do
  let leading ← symbol? '.'
  let n ← name
  return (if leading then "." ++ n else n)

/-! ## Numbers and ranges -/

/-- The largest number of a field. -/
def maxFieldNumber : Nat := 536870911

/-- The number of a field. -/
def fieldNumber : Phrase Int := do
  let n ← int
  guard (1 ≤ n && n ≤ maxFieldNumber)
  return n

/-- A number in 32 bits. -/
def constantNumber : Phrase Int := do
  let n ← signed
  guard (-2147483648 ≤ n && n ≤ 2147483647)
  return n

/-- A range of numbers from `first` on, after the word `to`; each is read by `number`, and `max`
stands for the number `max`.  A range that ends before it starts is empty. -/
def rangeFrom (first : Int) (number : Phrase Int) (max : Int) : Phrase NumberRange := do
  if ← keyword? "max" then return ⟨first, max⟩
  return ⟨first, ← number⟩

/-- A number or a range of numbers. -/
def range (number : Phrase Int) (max : Int) : Phrase NumberRange := do
  let first ← number
  if ← keyword? "to" then rangeFrom first number max
  else return ⟨first, first⟩

/-- A list of things with commas between them. -/
def commaList? (p : Phrase α) (tokens : List Token) : Option (List α) :=
  (Text.cut (· == .symbol ',') tokens).mapM (whole? p)

/-- The ranges of field numbers in a list. -/
def fieldRanges? : List Token → Option (List NumberRange) :=
  commaList? (range fieldNumber maxFieldNumber)

/-- The ranges of enum numbers in a list. -/
def constantRanges? : List Token → Option (List NumberRange) :=
  commaList? (range constantNumber 2147483647)

/-- Whether a text is a word that starts with a letter. -/
def isName (s : String) : Bool :=
  match s.toList with
  | [] => false
  | c :: cs => c.isAlpha && cs.all isWordChar

/-- The names in a list. -/
def reservedNames? : List Token → Option (List String) :=
  commaList? do
    let s ← string
    guard (isName s)
    return s

/-! ## Options -/

/-- A part of the name of an option. -/
def optionPart : Phrase OptionPart := do
  if ← symbol? '(' then
    let n ← typeName
    symbol ')'
    return ⟨n, true⟩
  return ⟨← word, false⟩

/-- The name of an option.  The fuel is the number of tokens. -/
def optionName : (fuel : Nat) → Phrase (List OptionPart)
  | 0 => failure
  | fuel + 1 => do
    let part ← optionPart
    if ← symbol? '.' then return part :: (← optionName fuel)
    return [part]

/-- The tokens up to the brace that closes the last of `braces` open ones, and what follows it. -/
def closeBraces (braces : Nat) : List Token → Option (List Token × List Token)
  | [] => none
  | t :: rest =>
    if t = .symbol '}' && braces ≤ 1 then some ([], rest)
    else
      let braces :=
        if t = .symbol '{' then braces + 1 else if t = .symbol '}' then braces - 1 else braces
      (closeBraces braces rest).map fun (inside, rest) => (t :: inside, rest)

/-- The value of an option.  A number with a minus sign must fit in 64 bits. -/
def optionValue : Phrase OptionValue := fun tokens =>
  match tokens with
  | .text _ :: _ => (text.run tokens).map fun (b, rest) => (.text b, rest)
  | .word w :: rest => some (.word w, rest)
  | .int n :: rest => some (.natural n, rest)
  | .float :: rest => some (.decimal, rest)
  | .symbol '-' :: .int n :: rest =>
    if n ≤ 0x8000000000000000 then some (.negative n, rest) else none
  | .symbol '-' :: .float :: rest => some (.decimal, rest)
  | .symbol '{' :: rest => (closeBraces 1 rest).map fun (inside, rest) => (.braces inside, rest)
  | _ => none

/-- A value that may have a minus sign also in front of a word or of a number of any size. -/
def signedValue : Phrase OptionValue := fun tokens =>
  match tokens with
  | .symbol '-' :: .word w :: rest => some (.word ("-" ++ w), rest)
  | .symbol '-' :: .int n :: rest => some (.negative n, rest)
  | tokens => optionValue tokens

/-- A setting of an option. -/
def optionSetting : Phrase OptionSetting := do
  let n ← optionName (← get).length
  symbol '='
  return ⟨n, ← optionValue⟩

/-- Settings with commas between them, each read by `setting`, up to the closing bracket.  The fuel
is the number of tokens. -/
def settingsList (setting : Phrase OptionSetting) : (fuel : Nat) → Phrase (List OptionSetting)
  | 0 => failure
  | fuel + 1 => do
    let s ← setting
    if ← symbol? ',' then return s :: (← settingsList setting fuel)
    symbol ']'
    return [s]

/-- The settings in brackets after a declaration, if there are any, each read by `setting`. -/
def settingsOf (setting : Phrase OptionSetting) : Phrase (List OptionSetting) := do
  if ← symbol? '[' then settingsList setting (← get).length
  else return []

/-- The options in brackets after a declaration, if there are any. -/
def optionSettings : Phrase (List OptionSetting) := settingsOf optionSetting

/-! ## Types -/

/-- The type of a field: its kind, if it is known, and the name, if it is a name. -/
def type : Phrase (Option FieldKind × String) := fun tokens =>
  match tokens with
  | .word w :: rest =>
    match Scalar.ofKeyword? w with
    | some s => some ((some (.scalar s), ""), rest)
    | none => (typeName.run tokens).map fun (n, rest) => ((none, n), rest)
  | _ => (typeName.run tokens).map fun (n, rest) => ((none, n), rest)

/-- The type of a field.  The words `map` and `group` start fields of other forms. -/
def fieldType : Phrase (Option FieldKind × String) := do
  let next ← peek
  guard (next != some (.word "map") && next != some (.word "group"))
  type

/-- The label of a field, if there is one. -/
def label? : Phrase (Option Label) := do
  if ← keyword? "optional" then return some .optional
  if ← keyword? "required" then return some .required
  if ← keyword? "repeated" then return some .repeated
  return none

end Phrase
end Proto
end SchemaPage
