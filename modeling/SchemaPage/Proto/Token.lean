import SchemaPage.Text.Blank

/-!
# Lexemes of a schema

A schema text is a sequence of tokens with remarks between them: comments, and the line breaks
that tell which declaration a comment belongs to.

The value of an option may stand between braces, and there the text has a language of its own: a
decimal number may end with the letter `f`, and a number sign starts a comment.  Such a value starts
with a brace right after an equals sign and ends with the brace that closes that one.

* `Token`, `Remark`, `Lexeme`: what the text consists of.
* `Place`: whether a value between braces is open.
* `lex?`: the lexemes of a text.
* `blockText`: the text of a block comment without the stars in front of its lines.
-/

namespace SchemaPage
namespace Proto

/-- A token. -/
inductive Token where
  | word (text : String)
  | int (value : Nat)
  | float
  /-- A quoted text, as bytes. -/
  | text (bytes : List UInt8)
  | symbol (c : Char)
  deriving DecidableEq, Repr

/-- What may stand between two tokens and count. -/
inductive Remark where
  /-- A comment up to the end of its line, with the line break. -/
  | line (text : String)
  | block (text : String)
  | newline
  deriving DecidableEq, Repr

/-- A token or a remark. -/
inductive Lexeme where
  | token (token : Token)
  | remark (remark : Remark)
  deriving DecidableEq, Repr

/-! ## Places -/

/-- Where in a text a lexeme stands. -/
inductive Place where
  | outside
  /-- Right after an equals sign. -/
  | afterEquals
  /-- In a value between braces, `braces` of which are open. -/
  | value (braces : Nat)
  deriving DecidableEq, Repr

namespace Place

/-- Whether the place is in a value between braces. -/
def isValue : Place → Bool
  | value _ => true
  | _ => false

/-- The place after a token. -/
def afterToken (place : Place) (t : Token) : Place :=
  match place with
  | value braces =>
    if t = .symbol '{' then value (braces + 1)
    else if t = .symbol '}' then if braces ≤ 1 then outside else value (braces - 1)
    else value braces
  | afterEquals =>
    if t = .symbol '{' then value 1 else if t = .symbol '=' then afterEquals else outside
  | outside => if t = .symbol '=' then afterEquals else outside

/-- The place after a lexeme.  Remarks do not count. -/
def after (place : Place) : Lexeme → Place
  | .token t => place.afterToken t
  | .remark _ => place

end Place

/-! ## Character classes -/

/-- A character that starts a word. -/
def isWordStart (c : Char) : Bool :=
  ('a' ≤ c && c ≤ 'z') || ('A' ≤ c && c ≤ 'Z') || c == '_'

/-- A decimal digit. -/
def isDigit (c : Char) : Bool := '0' ≤ c && c ≤ '9'

/-- A character inside a word. -/
def isWordChar (c : Char) : Bool := isWordStart c || isDigit c

/-- White space that never counts. -/
def isSkipped (c : Char) : Bool :=
  c == ' ' || c == '\t' || c == '\x0b' || c == '\x0c' || c == '\r'

/-- A character that is a token by itself. -/
def isSymbol (c : Char) : Bool := ".-+()[]{}<>=:;,/".toList.contains c

/-- The value of a digit in a base up to 16. -/
def digit? (base : Nat) (c : Char) : Option Nat :=
  let value :=
    if isDigit c then c.toNat - '0'.toNat
    else if 'a' ≤ c ∧ c ≤ 'f' then c.toNat - 'a'.toNat + 10
    else if 'A' ≤ c ∧ c ≤ 'F' then c.toNat - 'A'.toNat + 10
    else 16
  if value < base then some value else none

/-- The number that some digits write. -/
def number? (base : Nat) (digits : List Char) : Option Nat :=
  digits.foldlM (fun n c => (digit? base c).map (base * n + ·)) 0

/-! ## Comments -/

/-- The text with each line break written as one character. -/
def unifyBreaks : List Char → List Char
  | [] => []
  | '\r' :: '\n' :: cs => '\n' :: unifyBreaks cs
  | c :: cs => c :: unifyBreaks cs

/-- The text of a block comment, and what follows the comment.  After a line break, white space is
left out and then one star, unless it closes the comment.  While `fresh`, nothing of the line but
white space has come.  A comment inside the comment is refused. -/
def blockText (fresh : Bool) : List Char → Option (List Char × List Char)
  | [] => none
  | '*' :: '/' :: cs => some ([], cs)
  | '/' :: '*' :: _ => none
  | '\n' :: cs =>
    if fresh then blockText true cs
    else (blockText true cs).map fun (text, rest) => ('\n' :: text, rest)
  | '\r' :: '\n' :: cs =>
    if fresh then blockText true cs
    else (blockText true cs).map fun (text, rest) => ('\n' :: text, rest)
  | c :: cs =>
    if fresh && Text.isSpace c then blockText true cs
    else if fresh && c == '*' then blockText false cs
    else (blockText false cs).map fun (text, rest) => (c :: text, rest)

/-! ## Quoted texts -/

/-- The bytes of a character. -/
def bytesOf (c : Char) : List UInt8 := (String.singleton c).toUTF8.toList

/-- The byte that a letter after a backslash stands for. -/
def shortEscape? : Char → Option UInt8
  | 'a' => some 7
  | 'b' => some 8
  | 't' => some 9
  | 'n' => some 10
  | 'v' => some 11
  | 'f' => some 12
  | 'r' => some 13
  | '"' => some 34
  | '\'' => some 39
  | '?' => some 63
  | '\\' => some 92
  | _ => none

/-- The bytes of the character with a code point in hexadecimal. -/
def codePoint? (digits : List Char) : Option (List UInt8) :=
  match number? 16 digits with
  | some n => if n.isValidChar then some (bytesOf (Char.ofNat n)) else none
  | none => none

/-- The byte with a value below 256. -/
def byte? (n : Option Nat) : Option (List UInt8) :=
  n.bind fun n => if n < 256 then some [UInt8.ofNat n] else none

/-- Put bytes in front of a text that was read. -/
def push (bytes : List UInt8) (r : Option (List UInt8 × List Char)) :
    Option (List UInt8 × List Char) :=
  r.map fun (text, rest) => (bytes ++ text, rest)

/-- A digit of base 8. -/
def isOctal (c : Char) : Bool := '0' ≤ c && c ≤ '7'

/-- The bytes up to the closing quote, and what follows it. -/
def quoted (quote : Char) : List Char → Option (List UInt8 × List Char)
  | [] => none
  | '\\' :: 'u' :: a :: b :: c :: d :: cs =>
    (codePoint? [a, b, c, d]).bind fun bytes => push bytes (quoted quote cs)
  | '\\' :: 'U' :: a :: b :: c :: d :: e :: f :: g :: h :: cs =>
    (codePoint? [a, b, c, d, e, f, g, h]).bind fun bytes => push bytes (quoted quote cs)
  | '\\' :: x :: a :: b :: cs =>
    if x = 'x' ∨ x = 'X' then
      if (digit? 16 b).isSome then
        (byte? (number? 16 [a, b])).bind fun bytes => push bytes (quoted quote cs)
      else (byte? (number? 16 [a])).bind fun bytes => push bytes (quoted quote (b :: cs))
    else if isOctal x then
      if isOctal a then
        if isOctal b then
          (byte? (number? 8 [x, a, b])).bind fun bytes => push bytes (quoted quote cs)
        else (byte? (number? 8 [x, a])).bind fun bytes => push bytes (quoted quote (b :: cs))
      else (byte? (number? 8 [x])).bind fun bytes => push bytes (quoted quote (a :: b :: cs))
    else (shortEscape? x).bind fun byte => push [byte] (quoted quote (a :: b :: cs))
  | '\\' :: x :: cs =>
    if isOctal x then (byte? (number? 8 [x])).bind fun bytes => push bytes (quoted quote cs)
    else (shortEscape? x).bind fun byte => push [byte] (quoted quote cs)
  | '\\' :: [] => none
  | c :: cs =>
    if c = quote then some ([], cs)
    else if c = '\n' ∨ c = '\x00' then none
    else push (bytesOf c) (quoted quote cs)

/-! ## Numbers -/

/-- The exponent of a decimal number at the start, left out. -/
def dropExponent (cs : List Char) : List Char :=
  match cs with
  | e :: rest =>
    if e = 'e' ∨ e = 'E' then
      let digits := match rest with
        | '+' :: digits => digits
        | '-' :: digits => digits
        | digits => digits
      if digits.head?.any isDigit then digits.dropWhile isDigit else cs
    else cs
  | [] => []

/-- The token for an integer in some base, which must fit in 64 bits and never runs into a word. -/
def integer? (base : Nat) (digits rest : List Char) : Option (Token × List Char) :=
  match number? base digits with
  | some n =>
    if n < 0x10000000000000000 && !rest.head?.any isWordStart then some (.int n, rest) else none
  | none => none

/-- The token for a decimal number.  The letter `f` at its end belongs to it, and is admitted only
in a value between braces. -/
def decimal? (inValue : Bool) (rest : List Char) : Option (Token × List Char) :=
  match rest with
  | c :: cs =>
    if c = 'f' ∨ c = 'F' then if inValue then some (.float, cs) else none
    else some (.float, rest)
  | [] => some (.float, [])

/-- A number without a dot and an exponent: its digits, and what follows them.  A zero stands for
itself, also in front of digits that no octal number starts with. -/
def plainNumber? (inValue : Bool) (digits rest : List Char) : Option (Token × List Char) :=
  let isSuffix := rest.head?.any fun c => c == 'f' || c == 'F'
  match digits with
  | ['0'] => if isSuffix then decimal? inValue rest else some (.int 0, rest)
  | '0' :: c :: octal =>
    if isOctal c then integer? 8 (c :: octal) rest else some (.int 0, rest)
  | digits => if isSuffix then decimal? inValue rest else integer? 10 digits rest

/-- A number and what follows it.  The input starts with a digit, or with a dot and a digit. -/
def number (inValue : Bool) (cs : List Char) : Option (Token × List Char) :=
  match cs, cs.dropWhile isDigit with
  | '0' :: 'x' :: rest, _ | '0' :: 'X' :: rest, _ =>
    let hex := rest.takeWhile fun c => (digit? 16 c).isSome
    if hex.isEmpty then some (.int 0, cs.drop 1) else integer? 16 hex (rest.drop hex.length)
  | _, '.' :: rest => decimal? inValue (dropExponent (rest.dropWhile isDigit))
  | _, rest =>
    if (dropExponent rest).length < rest.length then decimal? inValue (dropExponent rest)
    else plainNumber? inValue (cs.takeWhile isDigit) rest

/-! ## The lexer -/

/-- The line comment that goes on with `cs`, and what follows it. -/
def lineComment (cs : List Char) : Lexeme × List Char :=
  let body := cs.takeWhile (· != '\n')
  let rest := cs.dropWhile (· != '\n')
  (.remark (.line (String.ofList (unifyBreaks (body ++ rest.take 1)))), rest.drop 1)

/-- The first lexeme, which starts with `c`, and what follows it. -/
def lexeme? (inValue : Bool) (c : Char) (cs : List Char) : Option (Lexeme × List Char) :=
  if c = '\n' then some (.remark .newline, cs)
  else if isWordStart c then
    some (.token (.word (String.ofList (c :: cs.takeWhile isWordChar))), cs.dropWhile isWordChar)
  else if isDigit c || (c == '.' && cs.head?.any isDigit) then
    (number inValue (c :: cs)).map fun (token, rest) => (.token token, rest)
  else if c = '"' ∨ c = '\'' then
    (quoted c cs).map fun (bytes, rest) => (.token (.text bytes), rest)
  else if c = '#' then if inValue then some (lineComment cs) else none
  else
    match c, cs with
    | '/', '/' :: cs => some (lineComment cs)
    | '/', '*' :: cs =>
      (blockText false cs).map fun (text, rest) => (.remark (.block (String.ofList text)), rest)
    | c, cs => if isSymbol c then some (.token (.symbol c), cs) else none

/-- The lexemes of some characters at a place.  The fuel is their number. -/
def lexAll? : (fuel : Nat) → Place → List Char → Option (List Lexeme)
  | _, _, [] => some []
  | 0, _, _ => none
  | fuel + 1, place, c :: cs =>
    if isSkipped c then lexAll? fuel place cs
    else
      match lexeme? place.isValue c cs with
      | none => none
      | some (lexeme, rest) => (lexAll? fuel (place.after lexeme) rest).map (lexeme :: ·)

/-- The lexemes of a text. -/
def lex? (text : String) : Option (List Lexeme) :=
  lexAll? text.toList.length .outside text.toList

end Proto
end SchemaPage
