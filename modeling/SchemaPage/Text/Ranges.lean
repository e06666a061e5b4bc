/-!
# Sets of characters given by ranges

A property of characters, such as being a letter, is given as a list of inclusive ranges of code
points.  The ranges are kept ascending, so that a search stops at the first range that lies
beyond the character.

* `CodeRanges.contains`: whether a code point lies in one of the ranges.
* `CodeRanges.contains_cons`: one range at a time.
-/

namespace SchemaPage
namespace Text

/-- Inclusive ranges of code points, ascending and apart. -/
abbrev CodeRanges := List (Nat × Nat)

namespace CodeRanges

/-- Whether `code` lies in one of the ranges.  The ranges are ascending, so none after the first
one that starts beyond `code` has to be looked at. -/
def contains (code : Nat) : CodeRanges → Bool
  | [] => false
  | (first, last) :: rest => if code < first then false else code ≤ last || contains code rest

@[simp] theorem contains_nil (code : Nat) : contains code [] = false := rfl

theorem contains_cons (code first last : Nat) (rest : CodeRanges) :
    contains code ((first, last) :: rest) =
      (if code < first then false else code ≤ last || contains code rest) := rfl

end CodeRanges

end Text
end SchemaPage
