import SchemaPage.Text.Escape

/-!
# Markup

A page is a list of pieces of markup: tags, text, white space between tags, and the stylesheet.  The
pieces are turned into text in one place, `Piece.render`, so only text that comes from a schema
has to be escaped, and it always is.

* `Piece`: what a page is made of.
* `Piece.render`, `render`: their written form.
* `render_append`: the pieces are written one after the other.
-/

namespace SchemaPage

/-- The elements that have content; `part` is the element `section`. -/
inductive Tag where
  | html | head | title | style | body | header | footer | div | part | h1
  | table | tr | th | td | a | span | p
  deriving DecidableEq, Repr

/-- The name of the element. -/
def Tag.name : Tag → String
  | html => "html"
  | head => "head"
  | title => "title"
  | style => "style"
  | body => "body"
  | header => "header"
  | footer => "footer"
  | div => "div"
  | part => "section"
  | h1 => "h1"
  | table => "table"
  | tr => "tr"
  | th => "th"
  | td => "td"
  | a => "a"
  | span => "span"
  | p => "p"

/-- An attribute.  Its value is written as it is: it is a fixed word or an anchor, and neither has a
character that would end it. -/
structure Attribute where
  name : String
  value : String
  deriving DecidableEq, Repr

/-- The written form of an attribute. -/
def Attribute.render (a : Attribute) : String := " " ++ a.name ++ "=\"" ++ a.value ++ "\""

/-- A piece of markup. -/
inductive Piece where
  | doctype
  | opening (tag : Tag) (attributes : List Attribute)
  | closing (tag : Tag)
  /-- A `meta` element, which has no content. -/
  | metadata (attributes : List Attribute)
  /-- A line break inside text. -/
  | lineBreak
  /-- White space between tags. -/
  | space (text : String)
  /-- Text that is shown. -/
  | text (text : String)
  /-- The stylesheet, which is no text of the page. -/
  | stylesheet (text : String)
  deriving DecidableEq, Repr

/-- The written form of a piece. -/
def Piece.render : Piece → String
  | doctype => "<!DOCTYPE html>"
  | opening tag attributes =>
    "<" ++ tag.name ++ String.join (attributes.map Attribute.render) ++ ">"
  | closing tag => "</" ++ tag.name ++ ">"
  | metadata attributes => "<meta" ++ String.join (attributes.map Attribute.render) ++ ">"
  | lineBreak => "<br/>"
  | space s => s
  | text s => Text.escape s
  | stylesheet s => s

namespace Markup

/-- The written form of a list of pieces. -/
def render (pieces : List Piece) : String := String.join (pieces.map Piece.render)

@[simp] theorem render_nil : render [] = "" := rfl

/-- The pieces are written one after the other. -/
theorem render_append (l r : List Piece) : render (l ++ r) = render l ++ render r := by
  simp [render]

/-- An element without attributes around some content. -/
def element (tag : Tag) (content : List Piece) : List Piece :=
  .opening tag [] :: content ++ [.closing tag]

/-- An element of a class around some content. -/
def classed (tag : Tag) (cls : String) (content : List Piece) : List Piece :=
  .opening tag [⟨"class", cls⟩] :: content ++ [.closing tag]

/-- A link to an anchor of the page. -/
def link (anchor : String) (content : List Piece) : List Piece :=
  .opening .a [⟨"href", "#" ++ anchor⟩] :: content ++ [.closing .a]

/-- An anchor of the page. -/
def anchor (name : String) (content : List Piece) : List Piece :=
  .opening .a [⟨"name", name⟩] :: content ++ [.closing .a]

/-- The start of a new line, indented. -/
def line (indentation : String) : Piece := .space ("\n" ++ indentation)

end Markup

end SchemaPage
