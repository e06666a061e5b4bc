/-!
# TOML tables

A document is a table of values, some of which are tables again.  A table is defined once, in one of
the ways that `Origin` lists, and the ways do not mix: a header names a table that no other header
and no dotted key has defined, a dotted key goes on only with tables that dotted keys have made, and
a table between braces is closed.

* `Value.insert?`: put a value under a dotted key.
* `Value.open?`: define the table that a header names.
-/

namespace SchemaPage
namespace Toml

/-- How a table came about. -/
inductive Origin where
  /-- Written between braces. -/
  | braces
  /-- Needed by a header for a table inside it. -/
  | implied
  /-- Named by a header. -/
  | header
  /-- Needed by a dotted key. -/
  | dotted
  deriving DecidableEq, Repr

/-- A value.  Numbers and dates are left out: nothing that is read here has any. -/
inductive Value where
  | text (text : String)
  | boolean (value : Bool)
  | array (values : List Value)
  | table (origin : Origin) (entries : List (String × Value))
  deriving Repr

namespace Value

/-- The text of a value that is a text. -/
def text? : Value → Option String
  | text s => some s
  | _ => none

/-- The texts of a value that is a list of texts. -/
def texts? : Value → Option (List String)
  | array values => values.mapM text?
  | _ => none

/-- The truth value of a value that is one. -/
def boolean? : Value → Option Bool
  | boolean b => some b
  | _ => none

/-- The word that a value stands for: a text, or the only key of a table with nothing under it. -/
def word? : Value → Option String
  | text s => some s
  | table _ [(word, table _ [])] => some word
  | table _ [(word, array [])] => some word
  | _ => none

/-! ## Tables -/

/-- The entry of a table under a key. -/
def lookup? (key : String) (entries : List (String × Value)) : Option Value :=
  (entries.find? (·.1 == key)).map (·.2)

/-- The entries with `value` under `key`, in the place of what was there. -/
def setEntry (key : String) (value : Value) : List (String × Value) → List (String × Value)
  | [] => [(key, value)]
  | e :: entries => if e.1 = key then (key, value) :: entries else e :: setEntry key value entries

/-- Put `value` under the key `key` or the dotted key `key.keys`, below a table of the origin
`origin`; nothing may be there yet. -/
def insertBelow? (value : Value) : List String → String → List (String × Value) →
    Option (List (String × Value))
  | [], key, entries =>
    if (lookup? key entries).isNone then some (entries ++ [(key, value)]) else none
  | next :: keys, key, entries =>
    match lookup? key entries with
    | none =>
      (insertBelow? value keys next []).map fun below => entries ++ [(key, table .dotted below)]
    | some (table .dotted below) =>
      (insertBelow? value keys next below).map fun below =>
        setEntry key (table .dotted below) entries
    | some _ => none

/-- Put `value` under a dotted key. -/
def insert? (key : List String) (value : Value) (entries : List (String × Value)) :
    Option (List (String × Value)) :=
  match key with
  | [] => none
  | key :: keys => insertBelow? value keys key entries

/-- Define the table that a header names and change its entries, of which it may have some
already. -/
def openBelow? (change : List (String × Value) → Option (List (String × Value))) :
    List String → String → List (String × Value) → Option (List (String × Value))
  | [], key, entries =>
    match lookup? key entries with
    | none => (change []).map fun below => entries ++ [(key, table .header below)]
    | some (table .implied below) =>
      (change below).map fun below => setEntry key (table .header below) entries
    | some _ => none
  | next :: keys, key, entries =>
    match lookup? key entries with
    | none =>
      (openBelow? change keys next []).map fun below => entries ++ [(key, table .implied below)]
    | some (table .braces _) => none
    | some (table origin below) =>
      (openBelow? change keys next below).map fun below =>
        setEntry key (table origin below) entries
    | some _ => none

/-- Define the table with the dotted name `name` and change its entries. -/
def open? (name : List String)
    (change : List (String × Value) → Option (List (String × Value)))
    (entries : List (String × Value)) : Option (List (String × Value)) :=
  match name with
  | [] => none
  | key :: keys => openBelow? change keys key entries

end Value

end Toml
end SchemaPage
