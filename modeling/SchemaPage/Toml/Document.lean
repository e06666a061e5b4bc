import SchemaPage.Toml.Table
import SchemaPage.Toml.Text

/-!
# TOML documents

A document is a list of lines, each a setting `key = value`, a header `[name]` or nothing, with an
optional comment.  The settings after a header belong to the table that it names.

* `Toml.parse?`: the table that a text describes.

Numbers, dates and headers of arrays are refused like any other mistake, since no setting takes
them.
-/

namespace SchemaPage
namespace Toml

/-- A character of a key without quotes. -/
def isKeyChar (c : Char) : Bool :=
  ('a' ≤ c && c ≤ 'z') || ('A' ≤ c && c ≤ 'Z') || ('0' ≤ c && c ≤ '9') || c == '_' || c == '-'

/-- Leave out the blanks at the start. -/
def dropBlanks (cs : List Char) : List Char := cs.dropWhile isBlank

/-- Leave out white space, line breaks and comments; a comment holds no control character.  While
`comment`, the start is inside a comment. -/
def dropSpace (comment : Bool) : List Char → Option (List Char)
  | [] => some []
  | '\n' :: cs => dropSpace false cs
  | '\r' :: '\n' :: cs => dropSpace false cs
  | c :: cs =>
    if comment then if isControl c then none else dropSpace true cs
    else if isBlank c then dropSpace false cs
    else if c = '#' then dropSpace true cs
    else some (c :: cs)

/-! ## Keys -/

/-- One key between dots. -/
def simpleKey? (cs : List Char) : Read String :=
  match cs.takeWhile isKeyChar with
  | [] => lineString? cs
  | key => some (String.ofList key, cs.dropWhile isKeyChar)

/-- The keys of a dotted key.  The fuel is the length of the input. -/
def dottedKey? : (fuel : Nat) → List Char → Read (List String)
  | 0, _ => none
  | fuel + 1, cs =>
    match simpleKey? (dropBlanks cs) with
    | none => none
    | some (key, cs) =>
      match dropBlanks cs with
      | '.' :: cs => (dottedKey? fuel cs).map fun (keys, cs) => (key :: keys, cs)
      | cs => some ([key], cs)

/-! ## Values -/

/-- Leave out an equals sign and the space around it, line breaks and comments included. -/
def equals? (cs : List Char) : Option (List Char) :=
  match dropSpace false cs with
  | some ('=' :: cs) => dropSpace false cs
  | _ => none

mutual

/-- A value.  The fuel is the length of the input. -/
def value? : (fuel : Nat) → List Char → Read Value
  | 0, _ => none
  | fuel + 1, cs =>
    match cs with
    | 't' :: 'r' :: 'u' :: 'e' :: cs => some (.boolean true, cs)
    | 'f' :: 'a' :: 'l' :: 's' :: 'e' :: cs => some (.boolean false, cs)
    | '[' :: cs => (values? fuel cs).map fun (values, cs) => (.array values, cs)
    | '{' :: cs => (fields? fuel [] cs).map fun (entries, cs) => (.table .braces entries, cs)
    | cs => (string? cs).map fun (s, cs) => (.text s, cs)

/-- The rest of an array. -/
def values? : (fuel : Nat) → List Char → Read (List Value)
  | 0, _ => none
  | fuel + 1, cs =>
    match dropSpace false cs with
    | some (']' :: cs) => some ([], cs)
    | some cs =>
      match value? fuel cs with
      | none => none
      | some (value, cs) =>
        match dropSpace false cs with
        | some (']' :: cs) => some ([value], cs)
        | some (',' :: cs) => (values? fuel cs).map fun (values, cs) => (value :: values, cs)
        | _ => none
    | none => none

/-- The rest of a table between braces, after the given entries.  Lines may end anywhere in it but
inside a key. -/
def fields? : (fuel : Nat) → List (String × Value) → List Char → Read (List (String × Value))
  | 0, _, _ => none
  | fuel + 1, entries, cs =>
    match dropSpace false cs with
    | some ('}' :: cs) => some (entries, cs)
    | some cs =>
      match dottedKey? fuel cs with
      | none => none
      | some (key, cs) =>
        match (equals? cs).bind (value? fuel) with
        | none => none
        | some (value, cs) =>
          match Value.insert? key value entries with
          | none => none
          | some entries =>
            match dropSpace false cs with
            | some ('}' :: cs) => some (entries, cs)
            | some (',' :: cs) => fields? fuel entries cs
            | _ => none
    | none => none

end

/-! ## Lines -/

/-- A line that says something. -/
inductive Statement where
  | header (name : List String)
  | setting (key : List String) (value : Value)
  deriving Repr

/-- The end of a line: nothing but blanks and a comment, and what follows it. -/
def lineEnd? (cs : List Char) : Option (List Char) :=
  match dropBlanks cs with
  | [] => some []
  | '\n' :: cs => some ('\n' :: cs)
  | '\r' :: '\n' :: cs => some ('\n' :: cs)
  | '#' :: cs => some ('#' :: cs)
  | _ => none

/-- A statement, up to the end of its line. -/
def statement? (cs : List Char) : Read Statement :=
  match cs with
  | '[' :: cs =>
    match dottedKey? (cs.length + 1) cs with
    | some (name, ']' :: cs) => (lineEnd? cs).map fun cs => (.header name, cs)
    | _ => none
  | cs =>
    match dottedKey? (cs.length + 1) cs with
    | some (key, '=' :: cs) =>
      match value? (cs.length + 1) (dropBlanks cs) with
      | some (value, cs) => (lineEnd? cs).map fun cs => (.setting key value, cs)
      | none => none
    | _ => none

/-- The statements of a text.  The fuel is its length. -/
def statements? : (fuel : Nat) → List Char → Option (List Statement)
  | 0, _ => none
  | fuel + 1, cs =>
    match dropSpace false cs with
    | none => none
    | some [] => some []
    | some cs =>
      match statement? cs with
      | none => none
      | some (s, cs) => (statements? fuel cs).map (s :: ·)

/-! ## The table of a document -/

/-- A header with the settings that belong to it. -/
structure Part where
  name : List String
  settings : List (List String × Value)
  deriving Repr

/-- The settings before the first header, and the headers with theirs. -/
def divide : List Statement → List (List String × Value) × List Part
  | [] => ([], [])
  | .setting key value :: rest =>
    let (own, parts) := divide rest
    ((key, value) :: own, parts)
  | .header name :: rest =>
    let (own, parts) := divide rest
    ([], ⟨name, own⟩ :: parts)

/-- Put settings into a table, one after the other. -/
def insertAll? (settings : List (List String × Value)) (entries : List (String × Value)) :
    Option (List (String × Value)) :=
  settings.foldlM (fun entries (key, value) => Value.insert? key value entries) entries

/-- The table that a text describes.  A byte order mark at its start does not count. -/
def parse? (text : String) : Option (List (String × Value)) := do
  let cs := match text.toList with
    | '\uFEFF' :: cs => cs
    | cs => cs
  let (settings, parts) := divide (← statements? (cs.length + 1) cs)
  parts.foldlM (fun entries part => Value.open? part.name (insertAll? part.settings) entries)
    (← insertAll? settings [])

end Toml
end SchemaPage
