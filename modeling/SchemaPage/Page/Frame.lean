import SchemaPage.Page.Markup
import SchemaPage.Page.Stylesheet
import SchemaPage.Schema.Declaration

/-!
# The frame of the page

The parts of a page that hold no table: its head, the two panes and the headings in them.  A part
that is opened by one definition is closed by another, so the page can be written from the top.

* `Frame.header`, `Frame.footer`: the page around the panes.
* `Frame.beginNav`, `Frame.endNav` and the entries between them: the navigation pane.
* `Frame.beginContent`, `Frame.endContent` and the headings between them: the content pane.
-/

namespace SchemaPage
namespace Frame

open Markup

/-- The page from its start to the opening of the region that holds the panes. -/
def header (title : String) : List Piece :=
  [.doctype,
    line "", .opening .html [⟨"lang", "en"⟩],
    line "", .opening .head [],
    line "    ", .metadata [⟨"charset", "UTF-8"⟩],
    line "    ", .metadata
      [⟨"name", "viewport"⟩, ⟨"content", "width=device-width, initial-scale=1"⟩],
    line "    "] ++
  element .title [.text title] ++
  [line "    ", .opening .style [⟨"type", "text/css"⟩],
    line "", .stylesheet (Stylesheet.render "        " Stylesheet.page),
    .space "    ", .closing .style,
    line "", .closing .head,
    line "", .opening .body [],
    line "", line ""] ++
  classed .header "header" [] ++
  [line "", .opening .div [⟨"class", "body"⟩]]

/-- The page from the end of the panes to its end. -/
def footer : List Piece :=
  [line "", .closing .div, line ""] ++
  classed .footer "footer" [] ++
  [line "", line "", .closing .body, line "", .closing .html]

/-- A heading in a pane: an element of class `cls` with some content on a line of its own. -/
def entry (cls : String) (content : List Piece) : List Piece :=
  [line "        ", .opening .div [⟨"class", cls⟩], line "            "] ++ content ++
  [line "        ", .closing .div]

/-- The start of the group of a package. -/
def beginGroup : List Piece := [line "        ", .opening .part [⟨"class", "ns-group"⟩]]

/-- The end of the group of a package. -/
def endGroup : List Piece := [line "        ", .closing .part]

/-- How a package is shown; the empty one has a name of its own. -/
def packageLabel (package : String) : String :=
  if package = "" then "(default package)" else package

/-! ## The navigation pane -/

/-- The start of the navigation pane. -/
def beginNav : List Piece :=
  [line "    ", .opening .div [⟨"class", "nav"⟩],
    line "        ", .opening .div [⟨"class", "nav-header"⟩],
    line "            "] ++
  element .h1 [.text "Table of Contents"] ++
  [line "        ", .closing .div,
    line "        ", .opening .div [⟨"class", "menu"⟩]]

/-- The end of the navigation pane. -/
def endNav : List Piece := [line "        ", .closing .div, line "    ", .closing .div, line ""]

/-- The link to a section. -/
def navSection (title target : String) : List Piece := entry "item" (link target [.text title])

/-- The start of a group, with the link to it. -/
def beginNavGroup (package target : String) : List Piece :=
  beginGroup ++ entry "ns" (link target [.text (packageLabel package)])

/-- The link to a declaration. -/
def navDeclaration (name target : String) : List Piece := entry "ns-item" (link target [.text name])

/-! ## The content pane -/

/-- The start of the content pane. -/
def beginContent (title : String) : List Piece :=
  [line "    ", .opening .div [⟨"class", "content"⟩], line "        "] ++
  classed .h1 "content-header" [.text title]

/-- The end of the content pane. -/
def endContent : List Piece := [line "    ", .closing .div, line ""]

/-- The heading of a section. -/
def contentSection (title name : String) : List Piece := entry "item" (anchor name [.text title])

/-- The start of a group, with its heading. -/
def beginContentGroup (package name : String) : List Piece :=
  beginGroup ++ entry "ns" (anchor name [.text (packageLabel package)])

/-- A note in brackets beside a heading; an empty one is left out. -/
def note (cls text : String) : List Piece :=
  if text = "" then [] else classed .span cls [.text ("[" ++ text ++ "]")]

/-- The heading of a declaration, with its package and its file. -/
def contentDeclaration (d : Declaration) (name : String) : List Piece :=
  entry "ns-item" (anchor name [.text d.name] ++ note "pkg" d.package ++ note "filename" d.path)

end Frame
end SchemaPage
