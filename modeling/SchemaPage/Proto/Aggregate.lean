import SchemaPage.Proto.Phrase

/-!
# Values between braces

The value of an option that is a message is written between braces: the names of fields, each with a
colon and a value.  In front of a message the colon may be missing; angle brackets do for braces;
a comma or a semicolon may follow a value; several values may stand as a list in brackets.  A name
in brackets is that of an extension or, after a slash, that of a message inside a message of any
type.

* `Aggregate`: a value, seen without the message that it is a value of.
* `Aggregate.ofTokens?`: the fields that the tokens between two braces set.
-/

namespace SchemaPage
namespace Proto

/-- How a value between braces calls a field. -/
inductive AggregateName where
  | field (name : String)
  | extension (fullName : String)
  /-- The content of a message of any type, by the type that it has. -/
  | content (fullName : String)
  deriving DecidableEq, Repr

/-- A value inside a value between braces. -/
inductive Aggregate where
  | plain (value : OptionValue)
  | message (fields : List (AggregateName × Aggregate))
  | list (values : List Aggregate)
  deriving Repr

namespace Aggregate

open Phrase

/-- The name of a field, if one comes next. -/
def fieldName? : Phrase (Option AggregateName) := do
  match ← peek with
  | some (.word _) => return some (.field (← word))
  | some (.symbol '[') =>
    symbol '['
    let n ← name
    if ← symbol? '/' then
      let n ← name
      symbol ']'
      return some (.content n)
    symbol ']'
    return some (.extension n)
  | _ => return none

/-- Read a comma or a semicolon, if one comes next. -/
def separator : Phrase Unit := do
  if !(← symbol? ',') then
    let _ ← symbol? ';'

/-- Read a colon.  It may be missing in front of a message and of a list. -/
def colon : Phrase Unit := do
  if !(← symbol? ':') then
    let next ← peek
    guard ([Token.symbol '{', .symbol '<', .symbol '['].any fun t => next == some t)

mutual

/-- The fields up to the end or to a token that starts none.  The fuel bounds the number of values
and how deep they stand. -/
def fields : (fuel : Nat) → Phrase (List (AggregateName × Aggregate))
  | 0 => failure
  | fuel + 1 => do
    match ← fieldName? with
    | none => return []
    | some n =>
      colon
      let v ← value fuel
      separator
      return (n, v) :: (← fields fuel)

/-- A value. -/
def value : (fuel : Nat) → Phrase Aggregate
  | 0 => failure
  | fuel + 1 => do
    if ← symbol? '{' then
      let fs ← fields fuel
      symbol '}'
      return .message fs
    if ← symbol? '<' then
      let fs ← fields fuel
      symbol '>'
      return .message fs
    if ← symbol? '[' then
      if ← symbol? ']' then return .list []
      return .list (← values fuel)
    return .plain (← signedValue)

/-- Values with commas between them, up to the closing bracket. -/
def values : (fuel : Nat) → Phrase (List Aggregate)
  | 0 => failure
  | fuel + 1 => do
    let v ← value fuel
    if ← symbol? ',' then return v :: (← values fuel)
    symbol ']'
    return [v]

end

/-- The fields that the tokens between two braces set. -/
def ofTokens? (tokens : List Token) : Option (List (AggregateName × Aggregate)) :=
  whole? (fields (tokens.length + 1)) tokens

end Aggregate

end Proto
end SchemaPage
