import SchemaPage.Page.Frame
import SchemaPage.Page.Table

/-!
# The page

The page lists the owned services, enums and messages in this order, each kind in a section of its
own.  A section is divided into groups by package, and both panes are written from the same
sections, so they show the same outline.

* `Document.sections`: what a page is about.
* `PackageGroup.ofDeclarations`: the groups of a section.
* `Document.draft`: the page as it comes out.
* `Declaration.references`: the type names that a block refers to, in the order of the page.
-/

namespace SchemaPage

/-- A run of declarations of one package. -/
structure PackageGroup where
  package : String
  declarations : List Declaration
  deriving Repr

/-- The maximal runs of declarations of one package. -/
def PackageGroup.ofDeclarations : List Declaration → List PackageGroup
  | [] => []
  | d :: ds =>
    match ofDeclarations ds with
    | [] => [⟨d.package, [d]⟩]
    | g :: gs =>
      if d.package = g.package then ⟨g.package, d :: g.declarations⟩ :: gs
      else ⟨d.package, [d]⟩ :: g :: gs

/-- The declarations of one kind that a page shows. -/
structure Section where
  kind : Kind
  declarations : List Declaration
  deriving Repr

/-- The groups of the section. -/
def Section.groups (s : Section) : List PackageGroup := PackageGroup.ofDeclarations s.declarations

namespace Declaration

/-- The groups of fields whose blocks follow the block of the declaration. -/
def oneofs (d : Declaration) : List Oneof := Field.oneofs d.fields

/-- The block of the declaration, without the groups of fields inside it. -/
def body (g : Graph) (options : PageOptions) (d : Declaration) : Draft :=
  match d.item with
  | .service s => s.draft g options.methodOrder d
  | .enumeration e => e.draft
  | .message m => m.draft g options.fieldOrder d

/-- The blocks of some groups of fields inside the declaration. -/
def oneofBlocks (g : Graph) (options : PageOptions) (d : Declaration) (groups : List Oneof) :
    Draft :=
  .concat (groups.map (Oneof.draft g options.fieldOrder d))

/-- The heading and the blocks of the declaration. -/
def draft (g : Graph) (options : PageOptions) (kind : Kind) (d : Declaration) : Draft :=
  .ofPieces (Frame.contentDeclaration d (Anchor.declaration kind d.package d.name)) ++
  d.body g options ++ d.oneofBlocks g options d.oneofs

end Declaration

namespace Document

/-- The declarations that a page is about: the owned ones from the files it is restricted to. -/
def selection (options : PageOptions) : Selection :=
  { sort := some .packageThenName, deps := .ownedOnly, paths := options.paths }

/-- The sections of a page. -/
def sections (g : Graph) (options : PageOptions) : List Section :=
  Kind.all.map fun kind => ⟨kind, g.list kind (selection options)⟩

/-- The entries for a group in the navigation pane. -/
def navGroup (kind : Kind) (group : PackageGroup) : List Piece :=
  Frame.beginNavGroup group.package (Anchor.group kind group.package) ++
  group.declarations.flatMap (fun d =>
    Frame.navDeclaration d.name (Anchor.declaration kind d.package d.name)) ++
  Frame.endGroup

/-- The entries for a section in the navigation pane. -/
def navSection (s : Section) : List Piece :=
  Frame.navSection s.kind.title (Anchor.ofKind s.kind) ++ s.groups.flatMap (navGroup s.kind)

/-- The navigation pane. -/
def nav (sections : List Section) : List Piece :=
  Frame.beginNav ++ sections.flatMap navSection ++ Frame.endNav

/-- A group in the content pane. -/
def contentGroup (g : Graph) (options : PageOptions) (kind : Kind) (group : PackageGroup) : Draft :=
  .ofPieces (Frame.beginContentGroup group.package (Anchor.group kind group.package)) ++
  .concat (group.declarations.map (Declaration.draft g options kind)) ++
  .ofPieces Frame.endGroup

/-- A section in the content pane. -/
def contentSection (g : Graph) (options : PageOptions) (s : Section) : Draft :=
  .ofPieces (Frame.contentSection s.kind.title (Anchor.ofKind s.kind)) ++
  .concat (s.groups.map (contentGroup g options s.kind))

/-- The content pane. -/
def content (g : Graph) (options : PageOptions) (sections : List Section) : Draft :=
  .ofPieces (Frame.beginContent options.title) ++
  .concat (sections.map (contentSection g options)) ++
  .ofPieces Frame.endContent

/-- The page of a graph. -/
def draft (g : Graph) (options : PageOptions) : Draft :=
  .ofPieces (Frame.header options.title) ++
  .ofPieces (nav (sections g options)) ++
  content g options (sections g options) ++
  .ofPieces Frame.footer

end Document

/-! ## References in the order of the page -/

/-- The type names that the row of a field refers to. -/
def Field.references : Field → List String
  | .plain f => [f.typeName]
  | .map f => [f.keyType, f.valueType]
  | .oneof _ _ _ => []

/-- The type names that the blocks of a declaration refer to, in the order of the page. -/
def Declaration.references (options : PageOptions) (d : Declaration) : List String :=
  match d.item with
  | .service s => (options.methodOrder.arrange s.rpcs).flatMap fun r => [r.request, r.response]
  | .enumeration _ => []
  | .message m =>
    (m.fields :: d.oneofs.map Oneof.members).flatMap fun fields =>
      (options.fieldOrder.arrange fields).flatMap Field.references

end SchemaPage
