/-!
# The stylesheet

The stylesheet of the page as data, and its written form.

* `StyleRule`: selectors and what they set.
* `Stylesheet.render`: the written form, in which every line is indented.
-/

namespace SchemaPage

/-- A rule: what the elements under some selectors look like. -/
structure StyleRule where
  /-- The selectors, one to a line. -/
  selectors : List String
  /-- The properties that are set, with their values. -/
  settings : List (String × String)

/-- A part of a stylesheet. -/
inductive StyleEntry where
  | rule (rule : StyleRule)
  /-- An empty line. -/
  | blank
  /-- Rules for some screens only, with empty lines between them. -/
  | media (condition : String) (rules : List StyleRule)

/-- The written form of a rule at some indentation. -/
def StyleRule.render (indentation : String) (rule : StyleRule) : String :=
  (",\n").intercalate (rule.selectors.map (indentation ++ ·)) ++ " \x7b\n" ++
    String.join (rule.settings.map fun s => indentation ++ "    " ++ s.1 ++ ": " ++ s.2 ++ ";\n") ++
    indentation ++ "\x7d\n"

/-- The written form of a part at some indentation. -/
def StyleEntry.render (indentation : String) : StyleEntry → String
  | rule r => r.render indentation
  | blank => "\n"
  | media condition rules =>
    indentation ++ "@media " ++ condition ++ " \x7b\n" ++
      "\n".intercalate (rules.map (StyleRule.render (indentation ++ "    "))) ++
      indentation ++ "\x7d\n"

namespace Stylesheet

/-- The stylesheet of the page. -/
def page : List StyleEntry :=
  [
    .rule
      ⟨["html, body, div, span, section, h1, p, a, table, tbody, tr, th, td, header, footer"],
        [("margin", "0"), ("padding", "0"), ("border", "0"), ("font-size", "100%"),
         ("font", "inherit"), ("vertical-align", "baseline")]⟩,
    .rule
      ⟨["header, footer, section"],
        [("display", "block")]⟩,
    .rule
      ⟨["table"],
        [("border-collapse", "collapse"), ("border-spacing", "0")]⟩,
    .blank,
    .rule
      ⟨["body"],
        [("font-family", "\"Lucida Sans\", \"Lucida Grande\", Verdana, Arial, sans-serif"),
         ("font-size", "13px"), ("line-height", "1"), ("width", "100%"),
         ("background-color", "#FFFFFF"), ("display", "flex"), ("flex-direction", "column"),
         ("min-height", "100vh")]⟩,
    .blank,
    .rule
      ⟨["a, a:visited"],
        [("text-decoration", "none"), ("color", "#05a")]⟩,
    .blank,
    .rule
      ⟨["a[name]"],
        [("color", "black")]⟩,
    .blank,
    .rule
      ⟨[".header, .footer"],
        [("width", "100%"), ("height", "60px")]⟩,
    .blank,
    .rule
      ⟨[".body"],
        [("flex", "1 0 auto"), ("display", "flex")]⟩,
    .blank,
    .rule
      ⟨[".body .content"],
        [("line-height", "1.5145em"), ("font-size", "15px"), ("padding", "1.2em"),
         ("padding-top", "0.2em")]⟩,
    .blank,
    .rule
      ⟨[".body .content .content-header"],
        [("margin-bottom", "10px")]⟩,
    .blank,
    .rule
      ⟨[".body .content .item"],
        [("font-weight", "bold"), ("border-bottom", "solid 1px black"),
         ("font-size", "1.2em"), ("margin", "6px 0")]⟩,
    .blank,
    .rule
      ⟨[".body .content .ns"],
        [("font-style", "italic"), ("background-color", "#fafafa"), ("margin-top", "6px")]⟩,
    .blank,
    .rule
      ⟨[".body .content .ns-item"],
        [("margin-left", "20px"), ("font-size", "1.1em"), ("padding", "8px 0")]⟩,
    .blank,
    .rule
      ⟨[".body .content .ns-itemsub"],
        [("margin-left", "38px"), ("font-size", "1.0em"), ("padding", "8px 0")]⟩,
    .blank,
    .rule
      ⟨[".body .content .ns-item .filename"],
        [("color", "#a0a0a0"), ("font-size", "0.8em"), ("margin-left", "10px")]⟩,
    .blank,
    .rule
      ⟨[".body .content .ns-item .pkg"],
        [("color", "#90a3f5"), ("font-size", "0.8em"), ("margin-left", "10px")]⟩,
    .blank,
    .rule
      ⟨[".body .nav"],
        [("width", "20%"), ("text-align", "left"), ("order", "-1"), ("font-size", "1.1em"),
         ("background", "#fdfdfd")]⟩,
    .blank,
    .rule
      ⟨[".body .nav .menu div"],
        [("padding", "5px 5px 5px 0"), ("background", "#fafafa")]⟩,
    .blank,
    .rule
      ⟨[".body .nav .menu div:nth-child(odd)"],
        [("background-color", "white")]⟩,
    .blank,
    .rule
      ⟨[".body .nav .menu .item"],
        [("padding-left", "10px"), ("font-weight", "bold")]⟩,
    .blank,
    .rule
      ⟨[".body .nav .menu .ns"],
        [("padding-left", "30px"), ("font-style", "italic")]⟩,
    .blank,
    .rule
      ⟨[".body .nav .menu .ns-item"],
        [("padding-left", "50px")]⟩,
    .blank,
    .rule
      ⟨[".body .nav .nav-header"],
        [("background", "#ffffff"), ("padding", "1em")]⟩,
    .blank,
    .media "(max-width: 700px)" [
      ⟨[".body"],
        [("flex-direction", "column")]⟩,
      ⟨[".body .nav"],
        [("width", "100%")]⟩],
    .blank,
    .rule
      ⟨["h1"],
        [("font-size", "1.4em")]⟩,
    .blank,
    .rule
      ⟨[".body .content .definition"],
        [("margin-left", "40px")]⟩,
    .blank,
    .rule
      ⟨[".body .content .definition .description"],
        [("font-family", "\"Helvetica Neue\", Helvetica, Arial, \"Lucida Grande\", sans-serif"),
         ("background-color", "white"), ("padding", "0px 8px 4px"), ("font-size", "1em")]⟩,
    .blank,
    .rule
      ⟨[".body .content .definition.oneof .description"],
        [("padding", "0px 16px 0px")]⟩,
    .blank,
    .rule
      ⟨[".body .content .definition .list table"],
        [("width", "90%")]⟩,
    .blank,
    .rule
      ⟨[".body .content .definition .list table th"],
        [("background-color", "#e0e0e0")]⟩,
    .blank,
    .rule
      ⟨[".body .content .definition .list table td, .body .content .definition .list table th"],
        [("border", "solid 1px black"), ("font-size", "0.9em"), ("padding", "1px 4px")]⟩,
    .blank,
    .rule
      ⟨[".body .content .definition .list table tbody tr:nth-child(odd)"],
        [("background-color", "#fcfcfc")]⟩,
    .blank,
    .rule
      ⟨[".body .content .definition .list td.fld-svc-method",
        ".body .content .definition .list td.fld-msg-fieldname"],
        [("width", "15%")]⟩,
    .blank,
    .rule
      ⟨[".body .content .definition .list td.fld-svc-req",
        ".body .content .definition .list td.fld-svc-ret",
        ".body .content .definition .list td.fld-msg-opt"],
        [("width", "20%")]⟩,
    .blank,
    .rule
      ⟨[".body .content .definition .list td.fld-msg-type",
        ".body .content .definition .list td.fld-enum-name"],
        [("width", "30%")]⟩,
    .blank,
    .rule
      ⟨[".body .content .definition .list td.fld-enum-value"],
        [("width", "10%"), ("text-align", "center")]⟩,
    .blank,
    .rule
      ⟨[".body .content .definition .list table.oneof"],
        [("margin-top", "6px"), ("margin-left", "20px"), ("width", "85%")]⟩]

/-- The written form of a stylesheet at some indentation. -/
def render (indentation : String) (entries : List StyleEntry) : String :=
  String.join (entries.map (StyleEntry.render indentation))

end Stylesheet

end SchemaPage
