import SchemaPage.Text.Alphanumeric
import SchemaPage.Text.Lowercase
import SchemaPage.Text.Split

/-!
# Slugs

The slug of a text keeps its letters, digits and underscores, in lower case, and puts one hyphen
where anything else stood between two of them.  Nothing is put at the ends.

* `words cs`: the maximal runs of name characters in `cs`.
* `words_append_cons`: any other character separates the words on its two sides.
* `slugify s`: the words of `s` in lower case, joined by hyphens.
-/

namespace SchemaPage
namespace Text

/-- The maximal runs of name characters. -/
def words (cs : List Char) : List (List Char) :=
  (cut (fun c => !isNameChar c) cs).filter (!·.isEmpty)

@[simp] theorem words_nil : words [] = [] := rfl

/-- A character that no name contains separates the words on its two sides. -/
theorem words_append_cons {c : Char} (h : isNameChar c = false) (l r : List Char) :
    words (l ++ c :: r) = words l ++ words r := by
  simp [words, cut_append_cons (q := fun c => !isNameChar c) (c := c) (by simp [h])]

/-- The slug of a list of characters. -/
def slugChars (cs : List Char) : List Char :=
  ['-'].intercalate ((words cs).map (·.flatMap lower))

/-- The slug of a text: its words in lower case, joined by hyphens. -/
def slugify (s : String) : String := String.ofList (slugChars s.toList)

@[simp] theorem slugify_empty : slugify "" = "" := rfl

end Text
end SchemaPage
