import SchemaPage.Proto.Token

/-!
# Which comment belongs to which declaration

Between the end of one declaration and the start of the next stand remarks.  A comment on the line
of the end trails the declaration before; one that directly precedes the start leads the
declaration after; a comment between blank lines belongs to neither.  Line comments on consecutive
lines are one comment.

* `Remarks.attach`: the trailing and the leading comment in a stretch of remarks.
-/

namespace SchemaPage
namespace Proto

/-- The comments in the stretch between two declarations. -/
structure Attached where
  /-- The comment on the declaration before. -/
  trailing : Option String
  /-- The comment on the declaration after. -/
  leading : Option String
  deriving DecidableEq, Repr

namespace Remarks

/-- What has been read of a stretch of remarks. -/
structure State where
  trailing : Option String
  /-- The comment that is still growing or waiting for its declaration. -/
  pending : Option String
  /-- Whether the pending comment consists of line comments. -/
  growing : Bool
  /-- Whether the next comment that ends may trail the declaration before. -/
  mayTrail : Bool
  deriving DecidableEq, Repr

/-- End the pending comment: it trails the declaration before, if it may, and else belongs to
none. -/
def State.flush (s : State) : State :=
  { trailing := if s.mayTrail then s.pending else s.trailing
    pending := none, growing := false, mayTrail := false }

/-- A line comment goes on with the pending comment, if that consists of line comments, or starts a
new one. -/
def State.line (s : State) (text : String) : State :=
  let s := if s.pending.isSome && !s.growing then s.flush else s
  { s with pending := some (s.pending.getD "" ++ text), growing := true }

/-- A block comment starts a new comment. -/
def State.block (s : State) (text : String) : State :=
  let s := if s.pending.isSome then s.flush else s
  { s with pending := some text, growing := false }

/-- A blank line ends the pending comment, after which nothing trails. -/
def State.newline (s : State) : State := { s.flush with mayTrail := false }

/-- Read the rest of a stretch.  The line break after a block comment is part of it. -/
def read : State → List Remark → State
  | s, [] => s
  | s, .line text :: rest => read (s.line text) rest
  | s, .block text :: .newline :: rest => read (s.block text) rest
  | s, .block text :: rest => read (s.block text) rest
  | s, .newline :: rest => read s.newline rest

/-- The end of a stretch: what is still pending leads the declaration after, unless the stretch
ends with the declarations around it. -/
def finish (closes : Bool) (s : State) : Attached :=
  let s := if closes then s.flush else s
  ⟨s.trailing, s.pending⟩

/-- The comments in the stretch before the first declaration of a text. -/
def attachFirst (closes : Bool) (remarks : List Remark) : Attached :=
  finish closes (read ⟨none, none, false, false⟩ remarks)

/-- The comments in the stretch after a declaration or after the opening of its body.  `closes` says
that the stretch ends with the body around it.  A block comment on the line of the declaration that
something follows belongs to neither side, with all comments after it. -/
def attach (closes : Bool) (remarks : List Remark) : Attached :=
  let start : State := ⟨none, none, false, true⟩
  match remarks with
  | .line text :: rest => finish closes (read (start.line text).flush rest)
  | .block text :: .newline :: rest => finish closes (read (start.block text) rest)
  | .block _ :: _ => ⟨none, none⟩
  | .newline :: rest => finish closes (read start rest)
  | [] => finish closes start

end Remarks
end Proto
end SchemaPage
