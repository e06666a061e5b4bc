import SchemaPage.Log
import SchemaPage.Text.Alphanumeric
import SchemaPage.Text.Blank
import SchemaPage.Text.Split

/-!
# Filters for the log

A filter is a list of rules with commas between them.  A rule names a part of the program, a value
that an event must have, a level, or several of these: `part[{value}]=level`.  Of the rules that
concern an event the most specific one counts.

* `LogFilter.shows`: whether an event is shown.
* `LogFilter.parse?`: a filter as it is written.
-/

namespace SchemaPage

/-- A rule for some events: those up to a level are shown.  No level shows nothing. -/
structure LogRule where
  /-- The start of the names of the parts; empty for every part. -/
  target : String := ""
  /-- A value that the events have. -/
  field : Option String := none
  level : Option LogLevel
  deriving DecidableEq, Repr

namespace LogRule

/-- Whether the rule concerns an event.  The sentence of an event is a value, too. -/
def concerns (r : LogRule) (e : LogEvent) : Bool :=
  r.target.toList.isPrefixOf e.target.toList &&
    r.field.all fun field => field == "message" || e.values.any (·.1 == field)

/-- Whether the rule is at least as specific as another: the longer name of a part counts more, and
then a value, the greater one before the smaller. -/
def outranks (r other : LogRule) : Bool :=
  if r.target.length = other.target.length then
    match other.field, r.field with
    | some a, some b => a ≤ b
    | some _, none => false
    | none, _ => true
  else other.target.length < r.target.length

end LogRule

/-- A list of rules. -/
structure LogFilter where
  rules : List LogRule
  deriving DecidableEq, Repr

namespace LogFilter

/-- The filter with one rule for every event. -/
def ofLevel (level : LogLevel) : LogFilter := ⟨[{ level }]⟩

/-- The rule that counts for an event: the most specific one, and of equal ones the last. -/
def ruleFor (f : LogFilter) (e : LogEvent) : Option LogRule :=
  (f.rules.filter (·.concerns e)).foldl (fun best r =>
    match best with
    | none => some r
    | some b => if r.outranks b then some r else some b) none

/-- Whether an event is shown. -/
def shows (f : LogFilter) (e : LogEvent) : Bool :=
  match (f.ruleFor e).bind (·.level) with
  | some level => e.level.rank ≤ level.rank
  | none => false

/-! ## Rules as they are written -/

/-- The number that a word writes in decimal digits, with a plus sign or without one. -/
def number? (word : String) : Option Nat :=
  let digits := match word.toList with
    | '+' :: digits => digits
    | digits => digits
  if digits.isEmpty then none
  else
    digits.foldlM (fun n c =>
      if '0' ≤ c ∧ c ≤ '9' then some (10 * n + (c.toNat - '0'.toNat)) else none) 0

/-- The level that a word in a filter stands for: a level, its number, or `off`. -/
def level? (word : String) : Option (Option LogLevel) :=
  match LogLevel.ofWord? word with
  | some l => some (some l)
  | none =>
    if Text.lowercase word = "off" then some none
    else
      match number? word with
      | some 0 => some none
      | some n => (LogLevel.all.find? (·.rank == n)).map some
      | none => none

/-- The level after an equals sign; without a word it is the last one. -/
def levelAfter? (word : List Char) : Option (Option LogLevel) :=
  if word.isEmpty then some (some .trace) else level? (String.ofList word)

/-- A character that a rule may start with. -/
def startsRule (c : Char) : Bool := ['[', '-', ':', '_'].contains c || Text.isAlphanumeric c

/-- The text of a rule.  White space at its ends does not count when places in it are found, but
what stands between two places is cut out of the whole text, counted from its start. -/
structure RuleText where
  whole : List Char
  trimmed : List Char

namespace RuleText

/-- The text with its white space at the ends. -/
def ofList (whole : List Char) : RuleText := ⟨whole, Text.dropEnds Text.isSpace whole⟩

/-- The text from a place on. -/
def drop (t : RuleText) (n : Nat) : RuleText := ⟨t.whole.drop n, t.trimmed.drop n⟩

/-- What stands in front of the first character that ends it, and what follows from there. -/
def cut (t : RuleText) (ends : Char → Bool) : String × RuleText :=
  let n := (t.trimmed.takeWhile (!ends ·)).length
  (String.ofList (t.whole.take n), t.drop n)

end RuleText

/-- The level at the end of a rule, after its brackets. -/
def ending? (t : RuleText) : Option (Option LogLevel) :=
  match t.trimmed with
  | [] => some (some .trace)
  | '=' :: _ => levelAfter? (t.drop 1).whole
  | _ => none

/-- The rules of a text with brackets, after the one that opens them.  A word in front of the braces
asks for a stretch of events with that name, and an equals sign inside them for one with that value:
there are none. -/
def bracketRules? (target : String) (t : RuleText) : Option (List LogRule) :=
  let (stretch, t) := t.cut fun c => c == ']' || c == '\x7b'
  match t.trimmed with
  | ']' :: _ => (ending? (t.drop 1)).map fun _ => []
  | '{' :: _ =>
    let (field, t) := (t.drop 1).cut (· == '\x7d')
    match t.trimmed with
    | '}' :: ']' :: _ =>
      if field = "" then none
      else
        (ending? (t.drop 2)).map fun level =>
          if stretch != "" || field.toList.contains '=' then []
          else [{ target, field := some field, level }]
    | _ => none
  | _ => none

/-- The rules in a part of a filter between commas. -/
def rules? (part : String) : Option (List LogRule) :=
  let t := RuleText.ofList part.toList
  if !t.trimmed.head?.any startsRule then none
  else
    let (target, rest) := t.cut fun c => c == '=' || c == '['
    match rest.trimmed with
    | '=' :: _ => (levelAfter? (rest.drop 1).whole).map fun level => [{ target, level }]
    | '[' :: _ => bracketRules? target (rest.drop 1)
    | _ =>
      match level? part with
      | some level => some [{ level }]
      | none => some [{ target := part, level := some .trace }]

/-- The filter that a text describes.  An empty one shows errors only. -/
def parse? (text : String) : Option LogFilter :=
  match (Text.split ',' text).filter (· != "") with
  | [] => some (ofLevel .error)
  | parts => (parts.mapM rules?).map fun rules => ⟨rules.flatten⟩

end LogFilter

end SchemaPage
