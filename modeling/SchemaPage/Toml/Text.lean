/-!
# TOML strings

The four forms of a string: basic and literal, on one line or on several.  A reader takes what
follows the opening quotes and returns the value with the rest of the input.

* `basic`: between double quotes, with escapes; a backslash at the end of a line also drops the
  white space that follows.
* `literal`: between single quotes, without escapes.
* `string?`: any of the four, from its opening quotes on.
-/

namespace SchemaPage
namespace Toml

/-- The white space inside a line. -/
def isBlank (c : Char) : Bool := c == ' ' || c == '\t'

/-- A control character that may stand in no text: all but the tab. -/
def isControl (c : Char) : Bool := (c.toNat < 0x20 && c != '\t') || c.toNat == 0x7F

/-- The value of a hexadecimal digit. -/
def hexDigit? (c : Char) : Option Nat :=
  if '0' ≤ c ∧ c ≤ '9' then some (c.toNat - '0'.toNat)
  else if 'a' ≤ c ∧ c ≤ 'f' then some (c.toNat - 'a'.toNat + 10)
  else if 'A' ≤ c ∧ c ≤ 'F' then some (c.toNat - 'A'.toNat + 10)
  else none

/-- The character with a code point in hexadecimal. -/
def codePoint? (digits : List Char) : Option Char :=
  match digits.foldlM (fun n c => (hexDigit? c).map (16 * n + ·)) 0 with
  | some n => if n.isValidChar then some (Char.ofNat n) else none
  | none => none

/-- The character that a letter after a backslash stands for. -/
def shortEscape? : Char → Option Char
  | 'b' => some '\x08'
  | 't' => some '\t'
  | 'n' => some '\n'
  | 'f' => some '\x0c'
  | 'r' => some '\r'
  | 'e' => some '\x1b'
  | '"' => some '"'
  | '\\' => some '\\'
  | _ => none

/-- A value that was read, with the rest of the input. -/
abbrev Read (α : Type) := Option (α × List Char)

/-- Put a character in front of a text that was read. -/
def Read.push (c : Char) (r : Read (List Char)) : Read (List Char) :=
  r.map fun (s, rest) => (c :: s, rest)

/-- What three quotes `q` with `rest` after them mean inside a text of several lines: they close it,
and up to two further quotes in front of them belong to it. -/
def closeLines (q : Char) (rest : List Char) : List Char × List Char :=
  match rest with
  | a :: b :: rest' =>
    if a = q then if b = q then ([q, q], rest') else ([q], b :: rest') else ([], rest)
  | [a] => if a = q then ([q], []) else ([], rest)
  | [] => ([], [])

/-- Whether a line ends after some blanks. -/
def endsLine (cs : List Char) : Bool :=
  match cs.dropWhile isBlank with
  | '\n' :: _ => true
  | '\r' :: '\n' :: _ => true
  | _ => false

/-- The text up to the closing double quotes.  While `dropping`, white space is left out. -/
def basic (lines dropping : Bool) : List Char → Read (List Char)
  | [] => none
  | c :: cs =>
    if dropping && (isBlank c || c == '\n' || (c == '\r' && cs.head? == some '\n')) then
      basic lines true cs
    else
      match c, cs with
      | '"', cs =>
        if lines then
          match cs with
          | '"' :: '"' :: rest => some (closeLines '"' rest)
          | _ => (basic lines false cs).push '"'
        else some ([], cs)
      | '\\', 'x' :: a :: b :: cs =>
        (codePoint? [a, b]).bind fun c => (basic lines false cs).push c
      | '\\', 'u' :: a :: b :: c :: d :: cs =>
        (codePoint? [a, b, c, d]).bind fun c => (basic lines false cs).push c
      | '\\', 'U' :: a :: b :: c :: d :: e :: f :: g :: h :: cs =>
        (codePoint? [a, b, c, d, e, f, g, h]).bind fun c => (basic lines false cs).push c
      | '\\', e :: cs =>
        match shortEscape? e with
        | some c => (basic lines false cs).push c
        | none => if lines && endsLine (e :: cs) then basic lines true (e :: cs) else none
      | '\n', cs => if lines then (basic lines false cs).push '\n' else none
      | '\r', '\n' :: cs => if lines then ((basic lines false cs).push '\n').push '\r' else none
      | c, cs => if isControl c then none else (basic lines false cs).push c

/-- The text up to the closing single quotes. -/
def literal (lines : Bool) : List Char → Read (List Char)
  | [] => none
  | '\'' :: cs =>
    if lines then
      match cs with
      | '\'' :: '\'' :: rest => some (closeLines '\'' rest)
      | _ => (literal lines cs).push '\''
    else some ([], cs)
  | '\n' :: cs => if lines then (literal lines cs).push '\n' else none
  | '\r' :: '\n' :: cs => if lines then ((literal lines cs).push '\n').push '\r' else none
  | c :: cs => if isControl c then none else (literal lines cs).push c

/-- A line break right after the opening quotes of a text of several lines does not count. -/
def dropBreak : List Char → List Char
  | '\n' :: cs => cs
  | '\r' :: '\n' :: cs => cs
  | cs => cs

/-- A string of one line, from its opening quote on. -/
def lineString? : List Char → Read String
  | '"' :: cs => (basic false false cs).map fun (s, rest) => (String.ofList s, rest)
  | '\'' :: cs => (literal false cs).map fun (s, rest) => (String.ofList s, rest)
  | _ => none

/-- A string of any form, from its opening quotes on. -/
def string? : List Char → Read String
  | '"' :: '"' :: '"' :: cs =>
    (basic true false (dropBreak cs)).map fun (s, rest) => (String.ofList s, rest)
  | '\'' :: '\'' :: '\'' :: cs =>
    (literal true (dropBreak cs)).map fun (s, rest) => (String.ofList s, rest)
  | cs => lineString? cs

end Toml
end SchemaPage
