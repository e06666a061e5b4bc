import SchemaPage.Text.Blank
import SchemaPage.Text.Split

/-!
# Comments

A comment is the list of its lines, kept as written; blank lines at its ends are dropped only when
it is shown.

* `Comment.ofText`: the lines of a text.
* `Comment.trimmed`: the lines from the first to the last that is not blank.
-/

namespace SchemaPage

/-- A comment on a declaration or on one of its members. -/
structure Comment where
  lines : List String
  deriving DecidableEq, Repr

namespace Comment

/-- The comment with the lines of `text`. -/
def ofText (text : String) : Comment := ⟨Text.split '\n' text⟩

/-- Whether the comment has no line at all. -/
def isEmpty (comment : Comment) : Bool := comment.lines.isEmpty

/-- The lines without the blank ones at both ends; blank lines inside stay. -/
def trimLines (lines : List String) : List String := Text.dropEnds Text.isBlank lines

/-- The lines that are shown. -/
def trimmed (comment : Comment) : List String := trimLines comment.lines

end Comment

end SchemaPage
