import SchemaPage.Log
import SchemaPage.Text.Quoted

/-!
# Lines of the log

An event as a line of text, either for people or as a JSON object.  A line bears no time.

* `LogEvent.line`: the line in the format that is asked for.
-/

namespace SchemaPage

/-- A character in a JSON string. -/
def jsonChar (c : Char) : List Char :=
  if c = '"' ∨ c = '\\' then ['\\', c]
  else if c.toNat < 0x20 then
    let digits := Nat.toDigits 16 c.toNat
    '\\' :: 'u' :: List.replicate (4 - digits.length) '0' ++ digits
  else [c]

/-- A text as a JSON string. -/
def jsonText (s : String) : String := "\"" ++ String.ofList (s.toList.flatMap jsonChar) ++ "\""

/-- A JSON object with the given entries, whose values are written already. -/
def jsonObject (entries : List (String × String)) : String :=
  "\x7b" ++ ",".intercalate (entries.map fun (key, value) => jsonText key ++ ":" ++ value) ++
    "\x7d"

namespace LogValue

/-- The value as JSON. -/
def json : LogValue → String
  | text s => jsonText s
  | number n => toString n

/-- The value for people. -/
def plain : LogValue → String
  | text s => Text.quote s
  | number n => toString n

end LogValue

namespace LogEvent

/-- The event as a JSON object. -/
def json (e : LogEvent) (includesLocation : Bool) : String :=
  let fields := ("message", jsonText e.message) :: e.values.map fun (key, v) => (key, v.json)
  let location := if includesLocation then [("target", jsonText e.target)] else []
  jsonObject <|
    [("level", jsonText e.level.label), ("fields", jsonObject fields)] ++ location

/-- The event for people. -/
def plain (e : LogEvent) (includesLocation : Bool) : String :=
  let location := if includesLocation then [e.target ++ ":"] else []
  let values := e.values.map fun (key, v) => key ++ "=" ++ v.plain
  " ".intercalate ([e.level.label] ++ location ++ [e.message] ++ values)

/-- The line for an event in the format that is asked for. -/
def line (c : LogConfig) (e : LogEvent) : String :=
  match c.format with
  | .json => e.json c.includesLocation
  | .pretty => e.plain c.includesLocation

end LogEvent

end SchemaPage
