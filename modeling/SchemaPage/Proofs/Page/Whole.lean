import SchemaPage.Proofs.Page.Outline

/-!
# Pages that come out whole

The only thing that can stop a page is a type name that stands for nothing.  A row comes out when
its type names do, a table when its rows do, and so on outwards; the frame around them needs no
names.

* `Field.row_isOk_iff`, `Rpc.row_isOk_iff`: when a row comes out.
* `Declaration.failure_draft_iff`: when the blocks of a declaration do.
* `Document.failure_draft_iff`: when a page does.
* `Document.generate_isOk_iff`: when a page is written to its end.
-/

namespace SchemaPage

variable {g : Graph} {d : Declaration}

/-! ## Rows -/

theorem Reference.ofType_isOk_iff {w : String} :
    (∃ r, ofType g d w = .ok r) ↔ g.Resolves d w := by
  unfold ofType Graph.Resolves
  constructor
  · rintro ⟨r, hr⟩
    obtain ⟨resolved, hresolved, -⟩ := Outcome.map_eq_ok_iff.1 hr
    exact ⟨resolved, hresolved⟩
  · rintro ⟨resolved, hresolved⟩
    exact ⟨_, Outcome.map_eq_ok_iff.2 ⟨resolved, hresolved, rfl⟩⟩

/-- The cell for the type of a field comes out when all type names in it stand for something. -/
theorem Field.typePieces_isOk_iff {f : Field} :
    (∃ pieces, f.typePieces g d = .ok pieces) ↔ ∀ w ∈ f.references, g.Resolves d w := by
  cases f with
  | plain f =>
    rw [Field.references, List.forall_mem_singleton, ← Reference.ofType_isOk_iff]
    constructor
    · rintro ⟨pieces, h⟩
      obtain ⟨r, hr, -⟩ := Outcome.bind_eq_ok_iff.1 h
      exact ⟨r, hr⟩
    · rintro ⟨r, hr⟩
      exact ⟨_, Outcome.bind_eq_ok_iff.2 ⟨r, hr, rfl⟩⟩
  | map f =>
    rw [Field.references, List.forall_mem_cons, List.forall_mem_singleton,
      ← Reference.ofType_isOk_iff, ← Reference.ofType_isOk_iff]
    constructor
    · rintro ⟨pieces, h⟩
      obtain ⟨key, hk, h⟩ := Outcome.bind_eq_ok_iff.1 h
      obtain ⟨value, hv, -⟩ := Outcome.bind_eq_ok_iff.1 h
      exact ⟨⟨key, hk⟩, ⟨value, hv⟩⟩
    · rintro ⟨⟨key, hk⟩, ⟨value, hv⟩⟩
      exact ⟨_, Outcome.bind_eq_ok_iff.2 ⟨key, hk, Outcome.bind_eq_ok_iff.2 ⟨value, hv, rfl⟩⟩⟩
  | oneof name members comment =>
    exact ⟨fun _ _ hw => absurd hw List.not_mem_nil, fun _ => ⟨_, rfl⟩⟩

theorem Field.row_isOk_iff {f : Field} :
    (∃ row, f.row g d = .ok row) ↔ ∀ w ∈ f.references, g.Resolves d w := by
  rw [← typePieces_isOk_iff]
  constructor
  · rintro ⟨row, h⟩
    obtain ⟨pieces, hp, -⟩ := Outcome.bind_eq_ok_iff.1 h
    exact ⟨pieces, hp⟩
  · rintro ⟨pieces, hp⟩
    exact ⟨_, Outcome.bind_eq_ok_iff.2 ⟨pieces, hp, rfl⟩⟩

theorem Rpc.row_isOk_iff {r : Rpc} :
    (∃ row, r.row g d = .ok row) ↔ ∀ w ∈ [r.request, r.response], g.Resolves d w := by
  rw [List.forall_mem_cons, List.forall_mem_singleton, ← Reference.ofType_isOk_iff,
    ← Reference.ofType_isOk_iff]
  constructor
  · rintro ⟨row, h⟩
    obtain ⟨request, hq, h⟩ := Outcome.bind_eq_ok_iff.1 h
    obtain ⟨response, hp, -⟩ := Outcome.bind_eq_ok_iff.1 h
    exact ⟨⟨request, hq⟩, ⟨response, hp⟩⟩
  · rintro ⟨⟨request, hq⟩, ⟨response, hp⟩⟩
    exact ⟨_, Outcome.bind_eq_ok_iff.2
      ⟨request, hq, Outcome.bind_eq_ok_iff.2 ⟨response, hp, rfl⟩⟩⟩

/-! ## Tables -/

/-- A table comes out when all of its rows do. -/
theorem failure_table_iff {attributes : List Attribute} {titles : List String} {depth : Nat}
    {rows : List (Except ResolveError Row)} :
    (table attributes titles depth rows).failure = none ↔ ∀ row ∈ rows, ∃ r, row = .ok r := by
  unfold table
  rw [Draft.failure_append_eq_none_iff, Draft.failure_append_eq_none_iff,
    Draft.failure_concat_eq_none_iff, List.forall_mem_map]
  simp only [Draft.failure_ofPieces, true_and, and_true, Draft.failure_ofExcept_eq_none_iff,
    Outcome.map_eq_ok_iff]
  refine forall₂_congr fun row _ => ?_
  exact ⟨fun ⟨_, r, hr, _⟩ => ⟨r, hr⟩, fun ⟨r, hr⟩ => ⟨_, r, hr, rfl⟩⟩

theorem failure_fieldTable_iff {order : FieldOrder} {attributes : List Attribute}
    {fields : List Field} :
    (fieldTable g order d attributes fields).failure = none ↔
      ∀ f ∈ order.arrange fields, ∀ w ∈ f.references, g.Resolves d w := by
  unfold fieldTable
  rw [failure_table_iff, List.forall_mem_map]
  exact forall₂_congr fun f _ => Field.row_isOk_iff

theorem Oneof.failure_draft_iff {order : FieldOrder} {group : Oneof} :
    (group.draft g order d).failure = none ↔
      ∀ f ∈ order.arrange group.members, ∀ w ∈ f.references, g.Resolves d w := by
  unfold Oneof.draft
  rw [Draft.failure_append_eq_none_iff, Draft.failure_append_eq_none_iff, failure_fieldTable_iff]
  simp only [Draft.failure_ofPieces, true_and, and_true]

/-! ## Blocks -/

theorem Service.failure_draft_iff {order : MethodOrder} {s : Service} :
    (s.draft g order d).failure = none ↔
      ∀ r ∈ order.arrange s.rpcs, ∀ w ∈ [r.request, r.response], g.Resolves d w := by
  unfold Service.draft
  rw [Draft.failure_append_eq_none_iff, Draft.failure_append_eq_none_iff, failure_table_iff,
    List.forall_mem_map]
  simp only [Draft.failure_ofPieces, true_and, and_true]
  exact forall₂_congr fun r _ => Rpc.row_isOk_iff

/-- There are no type names in an enum. -/
theorem EnumDecl.failure_draft (e : EnumDecl) : e.draft.failure = none := by
  unfold EnumDecl.draft
  rw [Draft.failure_append_eq_none_iff, Draft.failure_append_eq_none_iff, failure_table_iff,
    List.forall_mem_map]
  simp

theorem Message.failure_draft_iff {order : FieldOrder} {m : Message} :
    (m.draft g order d).failure = none ↔
      ∀ f ∈ order.arrange m.fields, ∀ w ∈ f.references, g.Resolves d w := by
  unfold Message.draft
  rw [Draft.failure_append_eq_none_iff, Draft.failure_append_eq_none_iff, failure_fieldTable_iff]
  simp only [Draft.failure_ofPieces, true_and, and_true]

namespace Declaration

variable {options : PageOptions}

/-- The blocks of a declaration come out when all type names in them stand for something. -/
theorem failure_draft_iff {kind : Kind} :
    (d.draft g options kind).failure = none ↔ ∀ w ∈ d.references options, g.Resolves d w := by
  have hblocks : (d.draft g options kind).failure = none ↔ (d.body g options).failure = none ∧
      ∀ o ∈ d.oneofs, (o.draft g options.fieldOrder d).failure = none := by
    unfold draft oneofBlocks
    rw [Draft.failure_append_eq_none_iff, Draft.failure_append_eq_none_iff,
      Draft.failure_concat_eq_none_iff, List.forall_mem_map]
    simp only [Draft.failure_ofPieces, true_and]
  rw [hblocks]
  unfold body references
  cases hitem : d.item with
  | service s =>
    have honeofs := oneofs_eq_nil fun m hm => Item.noConfusion (hitem.symm.trans hm)
    rw [honeofs, List.forall_mem_flatMap, and_iff_left (List.forall_mem_nil _)]
    exact Service.failure_draft_iff
  | enumeration e =>
    have honeofs := oneofs_eq_nil fun m hm => Item.noConfusion (hitem.symm.trans hm)
    rw [honeofs]
    exact iff_of_true ⟨e.failure_draft, List.forall_mem_nil _⟩ (List.forall_mem_nil _)
  | message m =>
    rw [List.forall_mem_flatMap, List.forall_mem_cons, List.forall_mem_map, List.forall_mem_flatMap]
    refine and_congr Message.failure_draft_iff (forall₂_congr fun o _ => ?_)
    rw [Oneof.failure_draft_iff, List.forall_mem_flatMap]

end Declaration

/-! ## Pages -/

namespace Document

variable {options : PageOptions}

/-- A page comes out when all type names that it shows stand for something. -/
theorem failure_draft_iff :
    (draft g options).failure = none ↔
      ∀ d ∈ shown g options, ∀ w ∈ d.references options, g.Resolves d w := by
  have hgroup : ∀ kind (group : PackageGroup), (contentGroup g options kind group).failure = none ↔
      ∀ d ∈ group.declarations, ∀ w ∈ d.references options, g.Resolves d w := by
    intro kind group
    unfold contentGroup
    rw [Draft.failure_append_eq_none_iff, Draft.failure_append_eq_none_iff,
      Draft.failure_concat_eq_none_iff, List.forall_mem_map]
    simp only [Draft.failure_ofPieces, Frame.endGroup, true_and, and_true,
      Declaration.failure_draft_iff]
  have hsection : ∀ s : Section, (contentSection g options s).failure = none ↔
      ∀ d ∈ s.declarations, ∀ w ∈ d.references options, g.Resolves d w := by
    intro s
    unfold contentSection
    rw [Draft.failure_append_eq_none_iff, Draft.failure_concat_eq_none_iff, List.forall_mem_map]
    simp only [Draft.failure_ofPieces, true_and, hgroup]
    rw [← List.forall_mem_flatMap, Section.groups, PackageGroup.flatMap_ofDeclarations]
  have hcontent : (draft g options).failure = none ↔
      ∀ s ∈ sections g options, (contentSection g options s).failure = none := by
    unfold draft content
    simp only [Draft.failure_append_eq_none_iff, Draft.failure_concat_eq_none_iff,
      List.forall_mem_map, Draft.failure_ofPieces, true_and, and_true]
  rw [hcontent, shown, List.forall_mem_flatMap]
  exact forall₂_congr fun s _ => hsection s

/-- Into a sink that never refuses, a page is written to its end exactly when all type names that it
shows stand for something. -/
theorem generate_isOk_iff {s : Sink} (hroom : s.room = none) (hflush : s.refusesFlush = false) :
    (generate g options s).2 = .ok () ↔
      ∀ d ∈ shown g options, ∀ w ∈ d.references options, g.Resolves d w := by
  rw [generate_eq_ok_iff hroom hflush, failure_draft_iff]

end Document

end SchemaPage
