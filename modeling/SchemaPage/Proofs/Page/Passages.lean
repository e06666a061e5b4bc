import SchemaPage.Proofs.Page.Outline

/-!
# The passages of a page

A page is fixed markup with the rows of tables in between.  Which markup there is and which members
have a row, and in which order, is settled by the sections and the options; a graph is asked only
what the type names in a row mean.  So pages can be compared passage by passage, and a page stops
nowhere but at a row.

* `Member`: what has a row in a table.
* `Passage`: a stretch of fixed markup, or the rows of a table.
* `Document.passages`: the passages of a page.
* `Document.draft_eq_ofPassages`: a page comes out as its passages do.
* `Document.lookups`, `Document.lookups_sections`: the type names that a page asks for, in its
  order.
* `Document.draft_congr`: when graphs with the same sections have one page.
-/

namespace SchemaPage

/-! ## Rows -/

/-- What has a row in a table. -/
inductive Member where
  | method (method : Rpc)
  | constant (constant : EnumConstant)
  | field (field : Field)
  deriving Repr

namespace Member

/-- The type names that the row refers to, in its order. -/
def references : Member → List String
  | method r => [r.request, r.response]
  | constant _ => []
  | field f => f.references

/-- The row of the member inside `d`. -/
def row (g : Graph) (d : Declaration) : Member → Except ResolveError Row
  | method r => r.row g d
  | constant c => .ok c.row
  | field f => f.row g d

/-- The indentation of the row. -/
def depth : Member → Nat
  | field _ => 3
  | _ => 2

/-- The row as it comes out. -/
def draft (g : Graph) (d : Declaration) (m : Member) : Draft :=
  .ofExcept ((m.row g d).map (Row.pieces m.depth))

end Member

/-! ## Passages -/

/-- A stretch of a page. -/
inductive Passage where
  /-- Markup that needs no reference. -/
  | markup (pieces : List Piece)
  /-- The rows of a table in the block of `context`. -/
  | rows (context : Declaration) (members : List Member)
  deriving Repr

namespace Passage

/-- The passage as it comes out. -/
def draft (g : Graph) : Passage → Draft
  | markup pieces => .ofPieces pieces
  | rows d members => .concat (members.map (Member.draft g d))

/-- The type names that the passage refers to, each with the declaration that it is written in. -/
def lookups : Passage → List (Declaration × String)
  | markup _ => []
  | rows d members => (members.flatMap Member.references).map (Prod.mk d)

@[simp] theorem draft_markup (g : Graph) (pieces : List Piece) :
    (markup pieces).draft g = .ofPieces pieces := rfl

@[simp] theorem lookups_markup (pieces : List Piece) : (markup pieces).lookups = [] := rfl

@[simp] theorem lookups_rows (d : Declaration) (members : List Member) :
    (rows d members).lookups = (members.flatMap Member.references).map (Prod.mk d) := rfl

end Passage

/-- Passages one after the other, up to the first row that does not come out. -/
def Draft.ofPassages (g : Graph) (passages : List Passage) : Draft :=
  .concat (passages.map (Passage.draft g))

namespace Draft

variable (g : Graph)

@[simp] theorem ofPassages_nil : ofPassages g [] = empty := rfl

@[simp] theorem ofPassages_cons (p : Passage) (ps : List Passage) :
    ofPassages g (p :: ps) = p.draft g ++ ofPassages g ps := rfl

theorem ofPassages_append (ps qs : List Passage) :
    ofPassages g (ps ++ qs) = ofPassages g ps ++ ofPassages g qs := by
  unfold ofPassages
  rw [List.map_append, concat_append]

theorem ofPassages_flatMap {α : Type} (l : List α) (passages : α → List Passage) :
    ofPassages g (l.flatMap passages) = concat (l.map fun a => ofPassages g (passages a)) := by
  induction l with
  | nil => rfl
  | cons a l ih => rw [List.flatMap_cons, ofPassages_append, ih, List.map_cons, concat_cons]

end Draft

/-- A table with rows for some members. -/
def Passage.table (attributes : List Attribute) (titles : List String) (d : Declaration)
    (members : List Member) : List Passage :=
  [.markup (beginTable attributes titles), .rows d members, .markup endTable]

/-- A table comes out like its passages. -/
theorem Draft.ofPassages_table {α : Type} {g : Graph} {d : Declaration} {depth : Nat}
    (member : α → Member) (row : α → Except ResolveError Row)
    (hrow : ∀ a, (member a).row g d = row a) (hdepth : ∀ a, (member a).depth = depth)
    (attributes : List Attribute) (titles : List String) (l : List α) :
    ofPassages g (Passage.table attributes titles d (l.map member)) =
      SchemaPage.table attributes titles depth (l.map row) := by
  have hrows : (l.map member).map (Member.draft g d) =
      (l.map row).map fun r => .ofExcept (r.map (Row.pieces depth)) := by
    rw [List.map_map, List.map_map]
    refine List.map_congr_left fun a _ => ?_
    show Draft.ofExcept (((member a).row g d).map (Row.pieces (member a).depth)) = _
    rw [hrow, hdepth]
    rfl
  unfold Passage.table SchemaPage.table
  rw [← hrows]
  simp [Passage.draft, append_assoc]

/-! ## Blocks -/

/-- The table of a list of fields. -/
def Passage.fieldTable (order : FieldOrder) (d : Declaration) (attributes : List Attribute)
    (fields : List Field) : List Passage :=
  table attributes ["Fieldname", "Type", "Flags", "Description"] d
    ((order.arrange fields).map .field)

/-- The block of a group of fields. -/
def Oneof.passages (order : FieldOrder) (d : Declaration) (group : Oneof) : List Passage :=
  .markup (group.heading d ++ beginDefinition "oneof" group.comment) ::
    Passage.fieldTable order d [⟨"class", "oneof"⟩] group.members ++
    [.markup [.closing .div]]

namespace Declaration

/-- The block of a declaration, without the groups of fields inside it. -/
def bodyPassages (options : PageOptions) (d : Declaration) : List Passage :=
  match d.item with
  | .service s =>
    .markup (beginDefinition "service" s.comment) ::
      Passage.table [] ["Method name", "Request Type", "Response Type", "Description"] d
        ((options.methodOrder.arrange s.rpcs).map .method) ++
      [.markup [Markup.line (tabs 1), .closing .div]]
  | .enumeration e =>
    .markup (beginDefinition "enum" e.comment) ::
      Passage.table [] ["Name", "Value", "Description"] d (e.constants.map .constant) ++
      [.markup [Markup.line (tabs 1), .closing .div]]
  | .message m =>
    .markup (beginDefinition "message" m.comment) ::
      Passage.fieldTable options.fieldOrder d [] m.fields ++
      [.markup [.closing .div]]

/-- The heading and the blocks of a declaration. -/
def passages (options : PageOptions) (kind : Kind) (d : Declaration) : List Passage :=
  .markup (Frame.contentDeclaration d (Anchor.declaration kind d.package d.name)) ::
    d.bodyPassages options ++ d.oneofs.flatMap (Oneof.passages options.fieldOrder d)

end Declaration

section Blocks

variable (g : Graph)

theorem ofPassages_fieldTable (order : FieldOrder) (d : Declaration) (attributes : List Attribute)
    (fields : List Field) :
    Draft.ofPassages g (Passage.fieldTable order d attributes fields) =
      fieldTable g order d attributes fields :=
  Draft.ofPassages_table .field (Field.row g d) (fun _ => rfl) (fun _ => rfl) attributes _
    (order.arrange fields)

theorem Oneof.ofPassages_passages (order : FieldOrder) (d : Declaration) (group : Oneof) :
    Draft.ofPassages g (group.passages order d) = group.draft g order d := by
  unfold passages draft
  rw [List.cons_append, Draft.ofPassages_cons, Draft.ofPassages_append, ofPassages_fieldTable]
  simp [Draft.append_assoc]

theorem Declaration.ofPassages_bodyPassages (options : PageOptions) (d : Declaration) :
    Draft.ofPassages g (d.bodyPassages options) = d.body g options := by
  unfold bodyPassages body
  cases d.item with
  | service s =>
    show Draft.ofPassages g (_ :: Passage.table _ _ _ _ ++ _) = s.draft g options.methodOrder d
    unfold Service.draft
    rw [List.cons_append, Draft.ofPassages_cons, Draft.ofPassages_append,
      Draft.ofPassages_table .method (Rpc.row g d) (fun _ => rfl) fun _ => rfl]
    simp [Draft.append_assoc]
  | enumeration e =>
    show Draft.ofPassages g (_ :: Passage.table _ _ _ _ ++ _) = e.draft
    unfold EnumDecl.draft
    rw [List.cons_append, Draft.ofPassages_cons, Draft.ofPassages_append,
      Draft.ofPassages_table .constant (fun c => .ok c.row) (fun _ => rfl) fun _ => rfl]
    simp [Draft.append_assoc]
  | message m =>
    show Draft.ofPassages g (_ :: Passage.fieldTable _ _ _ _ ++ _) = m.draft g options.fieldOrder d
    unfold Message.draft
    rw [List.cons_append, Draft.ofPassages_cons, Draft.ofPassages_append, ofPassages_fieldTable]
    simp [Draft.append_assoc]

/-- The blocks of a declaration come out like their passages. -/
theorem Declaration.ofPassages_passages (options : PageOptions) (kind : Kind) (d : Declaration) :
    Draft.ofPassages g (d.passages options kind) = d.draft g options kind := by
  have hgroups : (fun o : Oneof => Draft.ofPassages g (o.passages options.fieldOrder d)) =
      Oneof.draft g options.fieldOrder d :=
    funext (Oneof.ofPassages_passages g options.fieldOrder d)
  unfold passages draft oneofBlocks
  rw [List.cons_append, Draft.ofPassages_cons, Draft.ofPassages_append, ofPassages_bodyPassages,
    Draft.ofPassages_flatMap, hgroups, Draft.append_assoc]
  rfl

end Blocks

/-! ## Pages -/

namespace Document

/-- A group in the content pane. -/
def groupPassages (options : PageOptions) (kind : Kind) (group : PackageGroup) : List Passage :=
  .markup (Frame.beginContentGroup group.package (Anchor.group kind group.package)) ::
    group.declarations.flatMap (Declaration.passages options kind) ++ [.markup Frame.endGroup]

/-- A section in the content pane. -/
def sectionPassages (options : PageOptions) (s : Section) : List Passage :=
  .markup (Frame.contentSection s.kind.title (Anchor.ofKind s.kind)) ::
    s.groups.flatMap (groupPassages options s.kind)

/-- The page with some sections. -/
def passages (options : PageOptions) (sections : List Section) : List Passage :=
  [.markup (Frame.header options.title), .markup (nav sections),
    .markup (Frame.beginContent options.title)] ++
  sections.flatMap (sectionPassages options) ++
  [.markup Frame.endContent, .markup Frame.footer]

variable (g : Graph) (options : PageOptions)

theorem ofPassages_groupPassages (kind : Kind) (group : PackageGroup) :
    Draft.ofPassages g (groupPassages options kind group) = contentGroup g options kind group := by
  unfold groupPassages contentGroup
  rw [List.cons_append, Draft.ofPassages_cons, Draft.ofPassages_append, Draft.ofPassages_flatMap]
  simp only [Declaration.ofPassages_passages]
  simp [Draft.append_assoc]

theorem ofPassages_sectionPassages (s : Section) :
    Draft.ofPassages g (sectionPassages options s) = contentSection g options s := by
  unfold sectionPassages contentSection
  rw [Draft.ofPassages_cons, Draft.ofPassages_flatMap]
  simp only [ofPassages_groupPassages]
  rfl

/-- A page comes out as its passages do. -/
theorem draft_eq_ofPassages :
    draft g options = Draft.ofPassages g (passages options (sections g options)) := by
  unfold draft content passages
  rw [Draft.ofPassages_append, Draft.ofPassages_append, Draft.ofPassages_flatMap]
  simp only [ofPassages_sectionPassages]
  simp [Draft.append_assoc]

end Document

/-! ## Type names that are asked for -/

theorem lookups_table (attributes : List Attribute) (titles : List String) (d : Declaration)
    (members : List Member) :
    (Passage.table attributes titles d members).flatMap Passage.lookups =
      (members.flatMap Member.references).map (Prod.mk d) := by
  simp [Passage.table]

theorem lookups_fieldTable (order : FieldOrder) (d : Declaration) (attributes : List Attribute)
    (fields : List Field) :
    (Passage.fieldTable order d attributes fields).flatMap Passage.lookups =
      ((order.arrange fields).flatMap Field.references).map (Prod.mk d) := by
  rw [Passage.fieldTable, lookups_table, List.flatMap_map]
  rfl

theorem Oneof.lookups_passages (order : FieldOrder) (d : Declaration) (group : Oneof) :
    (group.passages order d).flatMap Passage.lookups =
      ((order.arrange group.members).flatMap Field.references).map (Prod.mk d) := by
  unfold passages
  rw [List.cons_append, List.flatMap_cons, List.flatMap_append, lookups_fieldTable]
  simp

/-- The blocks of a declaration ask for its references, in the order of the page. -/
theorem Declaration.lookups_passages (options : PageOptions) (kind : Kind) (d : Declaration) :
    (d.passages options kind).flatMap Passage.lookups =
      (d.references options).map (Prod.mk d) := by
  unfold passages
  rw [List.cons_append, List.flatMap_cons, List.flatMap_append, Passage.lookups_markup,
    List.nil_append, List.flatMap_assoc]
  simp only [Oneof.lookups_passages]
  cases hitem : d.item with
  | service s =>
    have honeofs := oneofs_eq_nil fun m hm => Item.noConfusion (hitem.symm.trans hm)
    unfold bodyPassages references
    simp only [hitem, honeofs]
    rw [List.cons_append, List.flatMap_cons, List.flatMap_append, lookups_table, List.flatMap_map]
    simp [Member.references]
  | enumeration e =>
    have honeofs := oneofs_eq_nil fun m hm => Item.noConfusion (hitem.symm.trans hm)
    unfold bodyPassages references
    simp only [hitem, honeofs]
    rw [List.cons_append, List.flatMap_cons, List.flatMap_append, lookups_table, List.flatMap_map]
    simp [Member.references]
  | message m =>
    unfold bodyPassages references
    simp only [hitem]
    rw [List.cons_append, List.flatMap_cons, List.flatMap_append, lookups_fieldTable]
    simp [List.map_flatMap, List.flatMap_map]

namespace Document

/-- The sections of a page ask for the references of their declarations. -/
theorem lookups_passages (options : PageOptions) (sections : List Section) :
    (passages options sections).flatMap Passage.lookups =
      (sections.flatMap Section.declarations).flatMap fun d =>
        (d.references options).map (Prod.mk d) := by
  have hgroup : ∀ kind (group : PackageGroup),
      (groupPassages options kind group).flatMap Passage.lookups =
        group.declarations.flatMap fun d => (d.references options).map (Prod.mk d) := by
    intro kind group
    unfold groupPassages
    rw [List.cons_append, List.flatMap_cons, List.flatMap_append, List.flatMap_assoc]
    simp [Declaration.lookups_passages]
  have hsection : ∀ s : Section, (sectionPassages options s).flatMap Passage.lookups =
      s.declarations.flatMap fun d => (d.references options).map (Prod.mk d) := by
    intro s
    unfold sectionPassages
    rw [List.flatMap_cons, List.flatMap_assoc]
    simp only [hgroup]
    rw [← List.flatMap_assoc, Section.groups, PackageGroup.flatMap_ofDeclarations]
    rfl
  unfold passages
  rw [List.flatMap_append, List.flatMap_append, List.flatMap_assoc, List.flatMap_assoc]
  simp [hsection]

/-- The type names of a page, each with the declaration that it is written in: those of the services
and then those of the messages, since an enum has none. -/
def lookups (g : Graph) (options : PageOptions) : List (Declaration × String) :=
  (g.list .service (selection options) ++ g.list .message (selection options)).flatMap fun d =>
    (d.references options).map (Prod.mk d)

variable {g g' : Graph} {options : PageOptions}

theorem references_of_mem_enumerations {d : Declaration}
    (h : d ∈ g.list .enumeration (selection options)) : d.references options = [] := by
  have hkind := (Graph.mem_candidates_iff.1 (Graph.mem_candidates_of_mem_list h)).2.1
  obtain ⟨file, item⟩ := d
  cases item with
  | enumeration e => rfl
  | service s => exact absurd hkind nofun
  | message m => exact absurd hkind nofun

/-- A page asks for its type names in their order. -/
theorem lookups_sections :
    (passages options (sections g options)).flatMap Passage.lookups = lookups g options := by
  have henums : (g.list .enumeration (selection options)).flatMap (fun d =>
      (d.references options).map (Prod.mk d)) = [] := by
    rw [List.flatMap_eq_nil_iff]
    intro d hd
    rw [references_of_mem_enumerations hd, List.map_nil]
  rw [lookups_passages, lookups, sections, Kind.all]
  simp [henums]

end Document

/-! ## Pages that ask for the same -/

section Congruence

variable {g g' : Graph}

/-- A row is the same where its type names are shown in one way. -/
theorem Member.draft_congr {d : Declaration} {m : Member}
    (h : ∀ w ∈ m.references, Reference.ofType g d w = Reference.ofType g' d w) :
    m.draft g d = m.draft g' d := by
  have hrow : m.row g d = m.row g' d := by
    cases m with
    | method r =>
      have hrequest := h r.request (by simp [references])
      have hresponse := h r.response (by simp [references])
      simp only [row, Rpc.row, hrequest, hresponse]
    | constant c => rfl
    | field f =>
      cases f with
      | plain f =>
        have htype := h f.typeName (by simp [references, Field.references])
        simp only [row, Field.row, Field.typePieces, htype]
      | map f =>
        have hkey := h f.keyType (by simp [references, Field.references])
        have hvalue := h f.valueType (by simp [references, Field.references])
        simp only [row, Field.row, Field.typePieces, hkey, hvalue]
      | oneof name members comment => rfl
  unfold draft
  rw [hrow]

theorem Passage.draft_congr {p : Passage}
    (h : ∀ x ∈ p.lookups, Reference.ofType g x.1 x.2 = Reference.ofType g' x.1 x.2) :
    p.draft g = p.draft g' := by
  cases p with
  | markup pieces => rfl
  | rows d members =>
    refine congrArg Draft.concat (List.map_congr_left fun m hm => Member.draft_congr fun w hw => ?_)
    exact h (d, w) (List.mem_map_of_mem (List.mem_flatMap_of_mem hm hw))

/-- Two graphs with the same sections have one page when the type names of the page are shown in one
way. -/
theorem Document.draft_congr {options : PageOptions}
    (hsections : sections g options = sections g' options)
    (h : ∀ x ∈ lookups g options, Reference.ofType g x.1 x.2 = Reference.ofType g' x.1 x.2) :
    draft g options = draft g' options := by
  rw [draft_eq_ofPassages, draft_eq_ofPassages, ← hsections]
  refine congrArg Draft.concat
    (List.map_congr_left fun p hp => Passage.draft_congr fun x hx => h x ?_)
  rw [← lookups_sections]
  exact List.mem_flatMap_of_mem hp hx

end Congruence

end SchemaPage
