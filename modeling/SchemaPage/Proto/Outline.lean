import SchemaPage.Proto.Remarks

/-!
# The outline of a schema

A schema is a list of statements.  A statement ends with a semicolon or with a body, which is a
list of statements between braces.  Braces inside a value belong to the value, with all that they
hold, and so do braces inside any other bracket.

* `Statement`, `Outline`: the outline of a text.
* `Outline.ofLexemes?`: the outline that lexemes make.
* `Statement.opening`: the comments in the stretch in front of the rest of a body.
-/

namespace SchemaPage
namespace Proto

/-- A statement, with the remarks in front of it. -/
inductive Statement where
  /-- A statement that ends with a semicolon. -/
  | simple (before : List Remark) (tokens : List Token)
  /-- A statement that ends with a body; `last` are the remarks at the end of the body. -/
  | block (before : List Remark) (header : List Token) (body : List Statement)
      (last : List Remark)
  deriving Repr

/-- A list of statements, with the remarks after the last. -/
structure Outline where
  statements : List Statement
  last : List Remark
  deriving Repr

namespace Outline

/-- The remarks at the start of some lexemes, and what follows them. -/
def remarks : List Lexeme → List Remark × List Lexeme
  | .remark r :: rest =>
    let (rs, rest) := remarks rest
    (r :: rs, rest)
  | rest => ([], rest)

/-- How a statement goes on after its tokens. -/
inductive Ending where
  | semicolon
  | brace
  deriving DecidableEq, Repr

/-- The tokens of a statement from a place on, how they end, and what follows.  `depth` is the
number of open brackets; those in a value between braces do not count. -/
def tokens (depth : Nat) (place : Place) :
    List Lexeme → Option (List Token × Ending × List Lexeme)
  | [] => none
  | .remark _ :: rest => tokens depth place rest
  | .token t :: rest =>
    let next := place.afterToken t
    let go (depth : Nat) : Option (List Token × Ending × List Lexeme) :=
      (tokens depth next rest).map fun (ts, ending, rest) => (t :: ts, ending, rest)
    if place.isValue || next.isValue then go depth
    else
      match t with
      | .symbol c =>
        if c = ';' && depth == 0 then some ([], .semicolon, rest)
        else if c = '{' && depth == 0 then some ([], .brace, rest)
        else if c = '(' || c = '[' || c = '{' then go (depth + 1)
        else if c = ')' || c = ']' || c = '}' then if depth = 0 then none else go (depth - 1)
        else go depth
      | _ => go depth

/-- The statements up to a closing brace or the end of the text, the remarks after them, and what
follows.  The fuel is the number of lexemes. -/
def read? : (fuel : Nat) → List Lexeme → Option (Outline × List Lexeme)
  | 0, _ => none
  | fuel + 1, lexemes =>
    let (before, rest) := remarks lexemes
    match rest with
    | [] => some (⟨[], before⟩, [])
    | .token (.symbol '}') :: _ => some (⟨[], before⟩, rest)
    | _ =>
      match tokens 0 .outside rest with
      | none => none
      | some (ts, .semicolon, rest) =>
        (read? fuel rest).map fun (o, rest) =>
          (⟨.simple before ts :: o.statements, o.last⟩, rest)
      | some (ts, .brace, rest) =>
        match read? fuel rest with
        | some (body, .token (.symbol '}') :: rest) =>
          (read? fuel rest).map fun (o, rest) =>
            (⟨.block before ts body.statements body.last :: o.statements, o.last⟩, rest)
        | _ => none

/-- The outline that lexemes make. -/
def ofLexemes? (lexemes : List Lexeme) : Option Outline :=
  match read? (lexemes.length + 1) lexemes with
  | some (o, []) => some o
  | _ => none

end Outline

namespace Statement

/-- The remarks in front of a statement. -/
def before : Statement → List Remark
  | simple before _ => before
  | block before _ _ _ => before

/-- The comments in the stretch in front of the rest of a body. -/
def opening (body : List Statement) (last : List Remark) : Attached :=
  match body with
  | [] => Remarks.attach true last
  | s :: _ => Remarks.attach false s.before

end Statement
end Proto
end SchemaPage
