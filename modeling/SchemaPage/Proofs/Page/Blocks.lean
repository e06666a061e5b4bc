import SchemaPage.Proofs.Order.Latest
import SchemaPage.Proofs.Page.Links

/-!
# Links and anchors of the blocks

What a block of the page links to, and which anchors it has.  A cell links to the declaration that
its type name means when that is owned, and a row that stands for a group of fields links to the
block of the group.  The anchors are those of the heading and those of the groups.

* `Graph.linkOf?`: the anchor that a type name links to.
* `Field.links`, `Declaration.links`: the links of a row and of the blocks of a declaration.
* `Field.mem_oneofs_of_mem_members`: a row for a group, wherever it stands, has a block.
* `Declaration.shows_draft`: the links and the anchors of the blocks of a declaration.
-/

namespace SchemaPage

open Markup

/-- The anchor that `typeName` links to when it is written inside `context`, if it links at all. -/
def Graph.linkOf? (g : Graph) (context : Declaration) (typeName : String) : Option String :=
  match g.resolve context typeName with
  | .ok (some (.declared target)) => if target.isOwned then some (Anchor.ofType target) else none
  | _ => none

/-- The anchors that the row of a field links to. -/
def Field.links (g : Graph) (context : Declaration) : Field → List String
  | .oneof name _ _ => [Anchor.oneof context.fullName name]
  | f => f.references.filterMap (g.linkOf? context)

/-- The anchors that the row of a method links to. -/
def Rpc.links (g : Graph) (context : Declaration) (r : Rpc) : List String :=
  [r.request, r.response].filterMap (g.linkOf? context)

namespace Declaration

/-- The anchors that the block of a declaration links to, without its groups of fields. -/
def bodyLinks (g : Graph) (options : PageOptions) (d : Declaration) : List String :=
  match d.item with
  | .service s => (options.methodOrder.arrange s.rpcs).flatMap (Rpc.links g d)
  | .enumeration _ => []
  | .message m => (options.fieldOrder.arrange m.fields).flatMap (Field.links g d)

/-- The anchors that the blocks of a declaration link to, in the order of the page. -/
def links (g : Graph) (options : PageOptions) (d : Declaration) : List String :=
  d.bodyLinks g options ++
    d.oneofs.flatMap fun o => (options.fieldOrder.arrange o.members).flatMap (Field.links g d)

/-- The anchors of the blocks of a declaration under a kind. -/
def anchors (kind : Kind) (d : Declaration) : List String :=
  Anchor.declaration kind d.package d.name :: d.oneofs.map fun o => Anchor.oneof d.fullName o.name

end Declaration

/-- A type name links when it means an owned declaration, and then to the anchor of that. -/
theorem Graph.linkOf?_eq_some_iff {g : Graph} {d : Declaration} {w x : String} :
    g.linkOf? d w = some x ↔ ∃ target, g.resolve d w = .ok (some (.declared target)) ∧
      target.isOwned ∧ Anchor.ofType target = x := by
  unfold linkOf?
  constructor
  · intro h
    split at h
    · rename_i target hresolve
      split at h
      · rename_i hown
        exact ⟨target, hresolve, hown, Option.some_inj.1 h⟩
      · simp at h
    · simp at h
  · rintro ⟨target, hresolve, hown, rfl⟩
    rw [hresolve]
    exact if_pos hown

/-! ## Rows -/

namespace Reference

theorem links_pieces (r : Reference) : links r.pieces = r.link.toList := by
  unfold pieces
  split
  · rename_i anchor h
    rw [h, links_link, (inert_text _).1]
    rfl
  · rename_i h
    rw [h, (inert_text _).1]
    rfl

theorem anchors_pieces (r : Reference) : anchors r.pieces = [] := by
  unfold pieces
  split
  · rw [anchors_link, (inert_text _).2]
  · rw [(inert_text _).2]

/-- A reference that comes out has the link of its type name. -/
theorem link_ofType {g : Graph} {d : Declaration} {w : String} {r : Reference}
    (h : ofType g d w = .ok r) : r.link = g.linkOf? d w := by
  unfold ofType at h
  unfold Graph.linkOf?
  cases hresolve : g.resolve d w with
  | error e => simp [hresolve, Except.map] at h
  | ok resolved =>
    rw [hresolve] at h
    obtain rfl : ofResolved d w resolved = r := Except.ok.inj h
    match resolved with
    | none => rfl
    | some (.scalar s) => rfl
    | some (.declared target) => rfl

end Reference

/-- The cell for the type of a field has the links of the field. -/
theorem Field.pieces_type {g : Graph} {d : Declaration} {f : Field} {pieces : List Piece}
    (h : f.typePieces g d = .ok pieces) :
    Markup.links pieces = f.links g d ∧ Markup.anchors pieces = [] := by
  cases f with
  | plain f =>
    obtain ⟨r, hr, h⟩ := Outcome.bind_eq_ok_iff.1 h
    obtain rfl := Except.ok.inj h
    have hmany : (if f.repeated then r.many else r).link = g.linkOf? d f.typeName := by
      rw [← Reference.link_ofType hr]
      split <;> rfl
    refine ⟨?_, Reference.anchors_pieces _⟩
    rw [Reference.links_pieces, hmany, Field.links, Field.references]
    · cases hw : g.linkOf? d f.typeName <;> simp [hw]
    · exact nofun
  | map f =>
    obtain ⟨key, hk, h⟩ := Outcome.bind_eq_ok_iff.1 h
    obtain ⟨value, hv, h⟩ := Outcome.bind_eq_ok_iff.1 h
    obtain rfl := Except.ok.inj h
    simp only [links_append, anchors_append, (inert_text _).1, (inert_text _).2,
      Reference.links_pieces, Reference.anchors_pieces, Reference.link_ofType hk,
      Reference.link_ofType hv, List.nil_append, List.append_nil, and_true]
    rw [Field.links, Field.references]
    · cases hkw : g.linkOf? d f.keyType <;> cases hvw : g.linkOf? d f.valueType <;>
        simp [hkw, hvw]
    · exact nofun
  | oneof name members comment =>
    obtain rfl := Except.ok.inj h
    exact ⟨Reference.links_pieces _, Reference.anchors_pieces _⟩

/-- The row of a field has the links of the field. -/
theorem Field.pieces_row {g : Graph} {d : Declaration} {f : Field} {row : Row} (depth : Nat)
    (h : f.row g d = .ok row) :
    Markup.links (row.pieces depth) = f.links g d ∧ Markup.anchors (row.pieces depth) = [] := by
  obtain ⟨type, htype, h⟩ := Outcome.bind_eq_ok_iff.1 h
  obtain rfl := Except.ok.inj h
  obtain ⟨hlinks, hanchors⟩ := pieces_type htype
  rw [links_row, anchors_row]
  simp [hlinks, hanchors, Piece.links, Piece.anchors, (inert_commentPieces f.comment).1,
    (inert_commentPieces f.comment).2]

/-- The row of a method has the links of its two types. -/
theorem Rpc.pieces_row {g : Graph} {d : Declaration} {r : Rpc} {row : Row} (depth : Nat)
    (h : r.row g d = .ok row) :
    Markup.links (row.pieces depth) = r.links g d ∧ Markup.anchors (row.pieces depth) = [] := by
  obtain ⟨request, hq, h⟩ := Outcome.bind_eq_ok_iff.1 h
  obtain ⟨response, hp, h⟩ := Outcome.bind_eq_ok_iff.1 h
  obtain rfl := Except.ok.inj h
  rw [links_row, anchors_row, Rpc.links]
  simp only [List.flatMap_cons, List.flatMap_nil, (inert_text _).1, (inert_text _).2,
    (inert_commentPieces r.comment).1, (inert_commentPieces r.comment).2,
    Reference.links_pieces, Reference.anchors_pieces, Reference.link_ofType hq,
    Reference.link_ofType hp, List.nil_append, List.append_nil, and_true]
  cases hqw : g.linkOf? d r.request <;> cases hpw : g.linkOf? d r.response <;> simp [hqw, hpw]

/-- The row of a constant has no link. -/
theorem EnumConstant.pieces_row (c : EnumConstant) (depth : Nat) :
    Markup.links (c.row.pieces depth) = [] ∧ Markup.anchors (c.row.pieces depth) = [] := by
  rw [links_row, anchors_row]
  simp [EnumConstant.row, Piece.links, Piece.anchors, (inert_commentPieces c.comment).1,
    (inert_commentPieces c.comment).2]

/-! ## Groups of fields -/

namespace Field

/-- A group among the fields is one of their groups. -/
theorem mem_oneofs_of_mem {name : String} {members fields : List Field} {comment : Option Comment}
    (h : oneof name members comment ∈ fields) : ⟨name, members, comment⟩ ∈ oneofs fields := by
  obtain ⟨before, after, rfl⟩ := List.append_of_mem h
  rw [oneofs_append, oneofs_cons]
  unfold ownOneofs
  exact List.mem_append_right _ (List.mem_append_left _ List.mem_cons_self)

mutual

theorem mem_ownOneofs_of_mem_members {group : Oneof} {name : String} {members : List Field}
    {comment : Option Comment} : ∀ {f : Field}, group ∈ f.ownOneofs →
      oneof name members comment ∈ group.members → ⟨name, members, comment⟩ ∈ f.ownOneofs
  | .plain _, h, _ | .map _, h, _ => by
    unfold ownOneofs at h
    exact absurd h List.not_mem_nil
  | .oneof n ms c, h, hm => by
    unfold ownOneofs at h ⊢
    rcases List.mem_cons.1 h with rfl | h
    · exact List.mem_cons_of_mem _ (mem_oneofs_of_mem hm)
    · exact List.mem_cons_of_mem _ (mem_oneofs_of_mem_members h hm)

/-- A group among the members of a group is one of the groups. -/
theorem mem_oneofs_of_mem_members {group : Oneof} {name : String} {members : List Field}
    {comment : Option Comment} : ∀ {fields : List Field}, group ∈ oneofs fields →
      oneof name members comment ∈ group.members → ⟨name, members, comment⟩ ∈ oneofs fields
  | [], h, _ => by
    rw [oneofs_nil] at h
    exact absurd h List.not_mem_nil
  | f :: fields, h, hm => by
    rw [oneofs_cons] at h ⊢
    rcases List.mem_append.1 h with h | h
    · exact List.mem_append_left _ (mem_ownOneofs_of_mem_members h hm)
    · exact List.mem_append_right _ (mem_oneofs_of_mem_members h hm)

end

end Field

/-- The rows are rows of the fields. -/
theorem FieldOrder.mem_of_mem_arrange {order : FieldOrder} {fields : List Field} {f : Field}
    (h : f ∈ order.arrange fields) : f ∈ fields := by
  cases order with
  | source => exact h
  | name => exact Order.mem_of_mem_latest h
  | tag => exact Order.mem_of_mem_latest h

theorem MethodOrder.mem_of_mem_arrange {order : MethodOrder} {rpcs : List Rpc} {r : Rpc}
    (h : r ∈ order.arrange rpcs) : r ∈ rpcs := by
  cases order with
  | source => exact h
  | name => exact Order.mem_of_mem_latest h

/-! ## Blocks -/

/-- The table of some fields has their links. -/
theorem shows_fieldTable (g : Graph) (order : FieldOrder) (d : Declaration)
    {attributes : List Attribute} (h : attributes.filterMap Attribute.target? = [])
    (fields : List Field) :
    (fieldTable g order d attributes fields).Shows
      ((order.arrange fields).flatMap (Field.links g d))
      [] :=
  shows_table h _ _ fun _ _ _ hrow => Field.pieces_row _ hrow

/-- The block of a group of fields has the anchor of the group and the links of its members. -/
theorem Oneof.shows_draft (g : Graph) (order : FieldOrder) (d : Declaration) (group : Oneof) :
    (group.draft g order d).Shows ((order.arrange group.members).flatMap (Field.links g d))
      [Anchor.oneof d.fullName group.name] := by
  have hheading : Markup.links (group.heading d) = [] ∧
      Markup.anchors (group.heading d) = [Anchor.oneof d.fullName group.name] := by
    simp [heading, line, Piece.links, Piece.anchors]
  have hbegin := inert_beginDefinition "oneof" group.comment
  have hstart : (Draft.ofPieces (group.heading d ++ beginDefinition "oneof" group.comment)).Shows []
      [Anchor.oneof d.fullName group.name] := by
    refine Draft.Shows.ofPieces ?_ ?_
    · rw [links_append, hheading.1, hbegin.1, List.nil_append]
    · rw [anchors_append, hheading.2, hbegin.2, List.append_nil]
  have htable : (fieldTable g order d [⟨"class", "oneof"⟩] group.members).Shows
      ((order.arrange group.members).flatMap (Field.links g d)) [] :=
    shows_fieldTable g order d rfl group.members
  have hend : (Draft.ofPieces [.closing .div]).Shows [] [] := Draft.Shows.ofInert ⟨rfl, rfl⟩
  have h := (hstart.append htable).append hend
  rwa [List.nil_append, List.append_nil, List.append_nil, List.append_nil] at h

namespace Declaration

/-- The block of a declaration, without its groups of fields, has no anchor. -/
theorem shows_body (g : Graph) (options : PageOptions) (d : Declaration) :
    (d.body g options).Shows (d.bodyLinks g options) [] := by
  unfold body bodyLinks
  cases d.item with
  | service s =>
    refine Draft.Shows.between (inert_beginDefinition _ s.comment) ?_ ⟨rfl, rfl⟩
    exact shows_table rfl _ _ fun r _ _ hrow => Rpc.pieces_row 2 hrow
  | enumeration e =>
    refine Draft.Shows.between (inert_beginDefinition _ e.comment) ?_ ⟨rfl, rfl⟩
    have hattributes : ([] : List Attribute).filterMap Attribute.target? = [] := rfl
    have hrow : ∀ c ∈ e.constants, ∀ r, (.ok c.row : Except ResolveError Row) = .ok r →
        Markup.links (r.pieces 2) = [] ∧ Markup.anchors (r.pieces 2) = [] := by
      intro c _ r hr
      rw [← Except.ok.inj hr]
      exact EnumConstant.pieces_row c 2
    have h := shows_table hattributes ["Name", "Value", "Description"] 2 hrow
    rwa [List.flatMap_eq_nil_iff.2 fun _ _ => rfl] at h
  | message m =>
    refine Draft.Shows.between (inert_beginDefinition _ m.comment) ?_ ⟨rfl, rfl⟩
    exact shows_fieldTable g options.fieldOrder d rfl m.fields

/-- The blocks of the groups of a declaration have the anchors of the groups. -/
theorem shows_oneofBlocks (g : Graph) (options : PageOptions) (d : Declaration) :
    (d.oneofBlocks g options d.oneofs).Shows
      (d.oneofs.flatMap fun o => (options.fieldOrder.arrange o.members).flatMap (Field.links g d))
      (d.oneofs.map fun o => Anchor.oneof d.fullName o.name) := by
  have h := Draft.Shows.concat fun o (_ : o ∈ d.oneofs) =>
    Oneof.shows_draft g options.fieldOrder d o
  rwa [← List.map_eq_flatMap] at h

/-- The links and the anchors of the blocks of a declaration. -/
theorem shows_draft (g : Graph) (options : PageOptions) (kind : Kind) (d : Declaration) :
    (d.draft g options kind).Shows (d.links g options) (d.anchors kind) := by
  have hheading : (Draft.ofPieces
      (Frame.contentDeclaration d (Anchor.declaration kind d.package d.name))).Shows []
        [Anchor.declaration kind d.package d.name] :=
    Draft.Shows.ofPieces (Frame.links_contentDeclaration d _) (Frame.anchors_contentDeclaration d _)
  have h := (hheading.append (shows_body g options d)).append (shows_oneofBlocks g options d)
  rwa [List.nil_append, List.append_nil] at h

end Declaration

/-! ## Links and references -/

/-- A row links to what its references mean, and the row of a group to the group. -/
theorem Field.mem_links_iff {g : Graph} {d : Declaration} {f : Field} {x : String} :
    x ∈ f.links g d ↔ (∃ w ∈ f.references, g.linkOf? d w = some x) ∨
      ∃ name members comment, f = .oneof name members comment ∧
        Anchor.oneof d.fullName name = x := by
  cases f with
  | plain f => simp [Field.links, List.mem_filterMap]
  | map f => simp [Field.links, List.mem_filterMap]
  | oneof name members comment =>
    rw [Field.links, List.mem_singleton, Field.references]
    constructor
    · intro hx
      exact Or.inr ⟨name, members, comment, rfl, hx.symm⟩
    · rintro (⟨w, hw, -⟩ | ⟨n, ms, c, h, hx⟩)
      · exact absurd hw List.not_mem_nil
      · rw [(Field.oneof.inj h).1, hx]

namespace Declaration

variable {g : Graph} {options : PageOptions} {d : Declaration} {x : String}

theorem oneofs_of_message {m : Message} (h : d.item = .message m) :
    d.oneofs = Field.oneofs m.fields := by
  unfold oneofs fields
  rw [h]

/-- Only messages have groups. -/
theorem oneofs_eq_nil (h : ∀ m, d.item ≠ .message m) : d.oneofs = [] := by
  unfold oneofs fields
  split
  · rename_i m hm
    exact absurd hm (h m)
  · exact Field.oneofs_nil

/-- The rows of a message are those of its own table and those of its groups. -/
theorem mem_links_message {m : Message} (h : d.item = .message m) :
    x ∈ d.links g options ↔ ∃ fields ∈ m.fields :: d.oneofs.map Oneof.members,
      ∃ f ∈ options.fieldOrder.arrange fields, x ∈ f.links g d := by
  have hlinks : d.links g options = (m.fields :: d.oneofs.map Oneof.members).flatMap fun fields =>
      (options.fieldOrder.arrange fields).flatMap (Field.links g d) := by
    unfold links bodyLinks
    rw [h, List.flatMap_cons, List.flatMap_map]
  rw [hlinks]
  simp only [List.mem_flatMap]

theorem mem_references_message {m : Message} (h : d.item = .message m) {w : String} :
    w ∈ d.references options ↔ ∃ fields ∈ m.fields :: d.oneofs.map Oneof.members,
      ∃ f ∈ options.fieldOrder.arrange fields, w ∈ f.references := by
  unfold references
  rw [h]
  simp only [List.mem_flatMap]

/-- The rows of a group refer to types of the declaration. -/
theorem references_oneof_subset {o : Oneof} (ho : o ∈ d.oneofs) :
    (options.fieldOrder.arrange o.members).flatMap Field.references ⊆ d.references options := by
  intro w hw
  obtain ⟨f, hf, hw⟩ := List.mem_flatMap.1 hw
  by_cases hitem : ∃ m, d.item = .message m
  · obtain ⟨m, hm⟩ := hitem
    exact (mem_references_message hm).2
      ⟨o.members, List.mem_cons_of_mem _ (List.mem_map_of_mem ho), f, hf, hw⟩
  · rw [oneofs_eq_nil (not_exists.1 hitem)] at ho
    exact absurd ho List.not_mem_nil

/-- A reference that links is one of the links. -/
theorem mem_links_of_mem_references {w : String} (hw : w ∈ d.references options)
    (hx : g.linkOf? d w = some x) : x ∈ d.links g options := by
  cases hitem : d.item with
  | service s =>
    unfold references at hw
    unfold links bodyLinks
    rw [hitem] at hw ⊢
    obtain ⟨r, hr, hw⟩ := List.mem_flatMap.1 hw
    exact List.mem_append_left _ (List.mem_flatMap.2 ⟨r, hr, List.mem_filterMap.2 ⟨w, hw, hx⟩⟩)
  | enumeration e =>
    unfold references at hw
    rw [hitem] at hw
    exact absurd hw List.not_mem_nil
  | message m =>
    obtain ⟨fields, hfields, f, hf, hw⟩ := (mem_references_message hitem).1 hw
    exact (mem_links_message hitem).2
      ⟨fields, hfields, f, hf, Field.mem_links_iff.2 (Or.inl ⟨w, hw, hx⟩)⟩

/-- Every link is that of a reference or leads to a group of the declaration itself. -/
theorem reference_or_oneof_of_mem_links (h : x ∈ d.links g options) :
    (∃ w ∈ d.references options, g.linkOf? d w = some x) ∨
      ∃ o ∈ d.oneofs, Anchor.oneof d.fullName o.name = x := by
  cases hitem : d.item with
  | service s =>
    have honeofs := oneofs_eq_nil fun m hm => Item.noConfusion (hitem.symm.trans hm)
    unfold links bodyLinks at h
    unfold references
    rw [hitem, honeofs, List.flatMap_nil, List.append_nil] at h
    rw [hitem]
    obtain ⟨r, hr, hx⟩ := List.mem_flatMap.1 h
    obtain ⟨w, hw, hx⟩ := List.mem_filterMap.1 hx
    exact Or.inl ⟨w, List.mem_flatMap.2 ⟨r, hr, hw⟩, hx⟩
  | enumeration e =>
    have honeofs := oneofs_eq_nil fun m hm => Item.noConfusion (hitem.symm.trans hm)
    unfold links bodyLinks at h
    rw [hitem, honeofs, List.flatMap_nil, List.append_nil] at h
    exact absurd h List.not_mem_nil
  | message m =>
    have honeofs := oneofs_of_message hitem
    obtain ⟨fields, hfields, f, hf, hx⟩ := (mem_links_message hitem).1 h
    rcases Field.mem_links_iff.1 hx with ⟨w, hw, hx⟩ | ⟨name, members, comment, rfl, rfl⟩
    · exact Or.inl ⟨w, (mem_references_message hitem).2 ⟨fields, hfields, f, hf, hw⟩, hx⟩
    · refine Or.inr ⟨⟨name, members, comment⟩, ?_, rfl⟩
      have hmem := FieldOrder.mem_of_mem_arrange hf
      rw [honeofs]
      rcases List.mem_cons.1 hfields with rfl | hfields
      · exact Field.mem_oneofs_of_mem hmem
      · obtain ⟨group, hgroup, rfl⟩ := List.mem_map.1 hfields
        exact Field.mem_oneofs_of_mem_members (honeofs ▸ hgroup) hmem

end Declaration

end SchemaPage
