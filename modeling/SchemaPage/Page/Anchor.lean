import SchemaPage.Schema.Declaration
import SchemaPage.Text.Slug

/-!
# Anchors

The names by which a page links to its own parts.  Every anchor starts with `content`, followed
by a kind and by slugs, joined by hyphens; a slug that is empty is left out.

A link is made from the full name of a declaration, while the block is named from its package and
its name.  The two agree because the dot between package and name is folded into the hyphen that
joins their slugs.

* `Anchor.ofKind`, `Anchor.group`, `Anchor.declaration`: the outline of the page.
* `Anchor.ofType`: the target of a type name that means a declaration.
* `Anchor.oneof`: the block of a group of fields.
-/

namespace SchemaPage
namespace Anchor

/-- The parts that are not empty, joined by hyphens. -/
def join (parts : List String) : String := "-".intercalate (parts.filter (· != ""))

/-- The anchor of the section for a kind. -/
def ofKind (kind : Kind) : String := join ["content", kind.label]

/-- The anchor of the group for a package inside a section.  It ends in a hyphen and the slug even
when the slug is empty, so it is never the anchor of the section. -/
def group (kind : Kind) (package : String) : String := ofKind kind ++ "-" ++ Text.slugify package

/-- The anchor of the block for a declaration. -/
def declaration (kind : Kind) (package name : String) : String :=
  join ["content", kind.label, Text.slugify package, Text.slugify name]

/-- The kind of block that a type name links to: enums among the enums, all else among the
messages. -/
def bucket : Kind → Kind
  | .enumeration => .enumeration
  | _ => .message

/-- The anchor that a type name links to when it means `d`. -/
def ofType (d : Declaration) : String :=
  join ["content", (bucket d.kind).label, Text.slugify d.fullName]

/-- The anchor of the block for the group `oneofName` of the message `messageName`, a full name. -/
def oneof (messageName oneofName : String) : String :=
  join ["content", "Oneof", Text.slugify messageName, Text.slugify oneofName]

/-- The anchor of the block for `d`. -/
def ofDeclaration (d : Declaration) : String := declaration d.kind d.package d.name

end Anchor
end SchemaPage
