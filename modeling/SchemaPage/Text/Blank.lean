/-!
# Blank text

White space is what has the Unicode property `White_Space`.  A text is blank when it has nothing
else; trimming removes white space from both ends.

* `isBlank`, `trim`: on texts.
* `dropEnds`: the general form of trimming, on lists.
-/

namespace SchemaPage
namespace Text

/-- A character with the property `White_Space`. -/
def isSpace (c : Char) : Bool :=
  let code := c.toNat
  (0x9 ≤ code && code ≤ 0xD) || code == 0x20 || code == 0x85 || code == 0xA0 ||
    code == 0x1680 || (0x2000 ≤ code && code ≤ 0x200A) || code == 0x2028 || code == 0x2029 ||
    code == 0x202F || code == 0x205F || code == 0x3000

/-- The list without the elements at both ends that satisfy `p`. -/
def dropEnds {α : Type} (p : α → Bool) (l : List α) : List α :=
  ((l.dropWhile p).reverse.dropWhile p).reverse

@[simp] theorem dropEnds_nil {α : Type} (p : α → Bool) : dropEnds p [] = [] := rfl

/-- The text without the white space at its ends. -/
def trim (s : String) : String := String.ofList (dropEnds isSpace s.toList)

/-- Whether the text has nothing but white space. -/
def isBlank (s : String) : Bool := s.toList.all isSpace

@[simp] theorem isBlank_empty : isBlank "" = true := rfl

end Text
end SchemaPage
