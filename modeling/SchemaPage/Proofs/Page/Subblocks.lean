import SchemaPage.Proofs.Page.Panes
import SchemaPage.Proofs.Page.Passages
import SchemaPage.Proofs.Schema.Nested

/-!
# The blocks of groups

A group of fields has a row in the table it stands in and a block of its own with a further table,
in which there may be rows for the groups inside it.  The blocks do not nest: they follow the block
of the message one after the other.  They are collected from the members as they stand in the
source, and the tables show them sorted and with rows left out; still every row that is shown finds
its block.

* `Oneof.entry`, `Oneof.reads_draft`: the heading of a block.
* `Declaration.rows_of_mem_passages`: the tables of a message.
* `Declaration.subblocks`: the headings after a message, and what the rows for groups link to.
-/

namespace SchemaPage

open Markup

/-! ## Headings -/

/-- A block without anchors is nothing in an outline by anchors. -/
theorem Markup.Fragment.reads_anchor {pieces : List Piece} (h : Fragment Grammar.blockHeads pieces)
    (hanchors : anchors pieces = []) : Reads Attribute.anchor? pieces [] :=
  h.reads_nil fun _ hmem => List.flatMap_eq_nil_iff.1 hanchors _ hmem

namespace Oneof

/-- The heading of the block of a group. -/
def entry (context : Declaration) (group : Oneof) : OutlineMark :=
  .entry (Anchor.oneof context.fullName group.name) ("Oneof " ++ context.name ++ "." ++ group.name)

variable (g : Graph) (order : FieldOrder) (d : Declaration)

/-- The block of a group has its heading and no other. -/
theorem reads_draft (group : Oneof) (h : (group.draft g order d).failure = none) :
    Reads Attribute.anchor? (group.draft g order d).pieces [group.entry d] := by
  obtain ⟨hfirst, -⟩ := Draft.failure_append_eq_none_iff.1 h
  have htable := (Draft.failure_append_eq_none_iff.1 hfirst).2
  have hbefore :
      Reads Attribute.anchor? [.opening .div [⟨"class", "ns-itemsub"⟩], line (tabs 4)] [] :=
    fun _ => rfl
  have hafter : Reads Attribute.anchor? [line (tabs 3), .closing .div] [] := fun _ => rfl
  have hheading : Reads Attribute.anchor? (group.heading d) [group.entry d] :=
    hbefore.between (reads_element _ (anchor?_name _)) hafter
  have hforms := forms_fieldTable g order d (by decide) group.members htable
  have hblock := fragment_definition "oneof" (by decide) group.comment [] nofun hforms
  have hanchors : anchors (beginDefinition "oneof" group.comment ++
      (fieldTable g order d [⟨"class", "oneof"⟩] group.members).pieces ++ ([] ++ [.closing .div])) =
        [] := by
    rw [anchors_append, anchors_append, (inert_beginDefinition "oneof" group.comment).2,
      (shows_fieldTable g order d rfl group.members htable).2]
    rfl
  have hpieces : (group.draft g order d).pieces =
      group.heading d ++ (beginDefinition "oneof" group.comment ++
        (fieldTable g order d [⟨"class", "oneof"⟩] group.members).pieces ++
          ([] ++ [.closing .div])) := by
    rw [draft, Draft.pieces_append hfirst, Draft.pieces_append rfl]
    simp [Draft.ofPieces]
  rw [hpieces]
  exact hheading.append (hblock.reads_anchor hanchors)

end Oneof

namespace Declaration

variable {g : Graph} {options : PageOptions} {kind : Kind} {d : Declaration} {m : Message}

/-- The blocks of some groups have their headings in the same order. -/
theorem reads_oneofBlocks {groups : List Oneof}
    (h : (d.oneofBlocks g options groups).failure = none) :
    Reads Attribute.anchor? (d.oneofBlocks g options groups).pieces
      (groups.map (Oneof.entry d)) := by
  have hblocks := Draft.failure_concat_eq_none_iff.1 h
  rw [oneofBlocks, Draft.pieces_concat hblocks, List.flatMap_map, List.map_eq_flatMap]
  exact .flatMap fun o ho =>
    o.reads_draft g options.fieldOrder d (hblocks _ (List.mem_map_of_mem ho))

/-- A declaration without the blocks of its groups has one heading. -/
theorem reads_ownBlock (h : (d.body g options).failure = none) :
    Reads Attribute.anchor?
      (Frame.contentDeclaration d (Anchor.declaration kind d.package d.name) ++
        (d.body g options).pieces)
      [.entry (Anchor.declaration kind d.package d.name) d.name] := by
  have hnotes :
      Reads Attribute.anchor? (Frame.note "pkg" d.package ++ Frame.note "filename" d.path) [] :=
    (reads_note _ _).append (reads_note _ _)
  have hheading :=
    reads_entry "ns-item" d.name (anchor?_name (Anchor.declaration kind d.package d.name)) hnotes
  have hbody := (d.forms_body g options h).reads_anchor (d.shows_body g options h).2
  have hframe : Frame.contentDeclaration d (Anchor.declaration kind d.package d.name) =
      Frame.entry "ns-item" (.opening .a [⟨"name", Anchor.declaration kind d.package d.name⟩] ::
        [.text d.name] ++ [.closing .a] ++
          (Frame.note "pkg" d.package ++ Frame.note "filename" d.path)) := by
    rw [Frame.contentDeclaration, List.append_assoc]
    rfl
  rw [hframe]
  exact hheading.append hbody

/-! ## Rows -/

/-- The tables of a message are that of its members and those of its groups. -/
theorem rows_of_mem_passages (hitem : d.item = .message m) {context : Declaration}
    {members : List Member} (h : .rows context members ∈ d.passages options kind) :
    context = d ∧ ∃ fields ∈ m.fields :: (Field.oneofs m.fields).map Oneof.members,
      members = (options.fieldOrder.arrange fields).map .field := by
  rw [passages, oneofs_of_message hitem] at h
  simp only [bodyPassages, hitem, Oneof.passages, Passage.fieldTable, Passage.table,
    List.cons_append, List.nil_append, List.mem_cons, List.mem_flatMap, List.not_mem_nil, or_false,
    reduceCtorEq, false_or, Passage.rows.injEq] at h
  rcases h with ⟨rfl, rfl⟩ | ⟨group, hgroup, rfl, rfl⟩
  · exact ⟨rfl, m.fields, List.mem_cons_self, rfl⟩
  · exact ⟨rfl, group.members, List.mem_cons_of_mem _ (List.mem_map_of_mem hgroup), rfl⟩

/-- A row for a group links to the block of the group, which is one of those of the message. -/
theorem links_of_oneof_row (hitem : d.item = .message m) {context : Declaration}
    {members : List Member}
    (h : .rows context members ∈ d.passages options kind) {name : String} {inside : List Field}
    {comment : Option Comment} (hrow : .field (.oneof name inside comment) ∈ members) :
    ⟨name, inside, comment⟩ ∈ Field.oneofs m.fields ∧
      Markup.links ((Member.field (.oneof name inside comment)).draft g context).pieces =
        [Anchor.oneof d.fullName name] := by
  obtain ⟨rfl, fields, hfields, rfl⟩ := rows_of_mem_passages hitem h
  obtain ⟨f, hf, heq⟩ := List.mem_map.1 hrow
  obtain rfl := Member.field.inj heq
  have hmem := FieldOrder.mem_of_mem_arrange hf
  refine ⟨?_, ?_⟩
  · rcases List.mem_cons.1 hfields with rfl | hfields
    · exact Field.mem_oneofs_of_mem hmem
    · obtain ⟨group, hgroup, rfl⟩ := List.mem_map.1 hfields
      exact Field.mem_oneofs_of_mem_members hgroup hmem
  · have hout : (Field.oneof name inside comment).row g context = .ok _ := rfl
    exact (Field.pieces_row 3 hout).1

/-- The blocks of groups are complete, and the rows lead to them.  The groups that are collected
from two lists of members are those of the one and then those of the other, and there is one for
each place with a group.  A message that comes out is followed by the headings of its groups, of all
places in ascending order and each once; and in its own table and in those of the groups every row
for a group links to the block of that group. -/
theorem subblocks :
    (∀ l r, Field.oneofs (l ++ r) = Field.oneofs l ++ Field.oneofs r) ∧
    (∀ fields, (Field.oneofs fields).length =
      {place | (Field.groupAt? fields place).isSome}.ncard) ∧
    ∀ (g : Graph) (options : PageOptions) (kind : Kind) (d : Declaration) (m : Message),
      d.item = .message m → (d.draft g options kind).failure = none →
      ∃ places groups, Field.ListsGroups (Field.groupAt? m.fields) places groups ∧
        (∃ blocks, (d.draft g options kind).pieces =
            Frame.contentDeclaration d (Anchor.declaration kind d.package d.name) ++
              (m.draft g options.fieldOrder d).pieces ++ blocks ∧
          outlineMarks Attribute.anchor?
              (Frame.contentDeclaration d (Anchor.declaration kind d.package d.name) ++
                (m.draft g options.fieldOrder d).pieces) =
            [.entry (Anchor.declaration kind d.package d.name) d.name] ∧
          outlineMarks Attribute.anchor? blocks = groups.map (Oneof.entry d)) ∧
        d.draft g options kind = Draft.ofPassages g (d.passages options kind) ∧
        ∀ context members, .rows context members ∈ d.passages options kind →
          ∀ name inside comment, .field (.oneof name inside comment) ∈ members →
            ⟨name, inside, comment⟩ ∈ groups ∧
              Markup.links ((Member.field (.oneof name inside comment)).draft g context).pieces =
                [Anchor.oneof d.fullName name] := by
  refine ⟨Field.oneofs_append, Field.length_oneofs, fun g options kind d m hitem hdraft => ?_⟩
  obtain ⟨places, hplaces⟩ := Field.exists_listsGroups_oneofs m.fields
  refine ⟨places, Field.oneofs m.fields, hplaces,
    ⟨(d.oneofBlocks g options d.oneofs).pieces, ?_, ?_, ?_⟩,
    (ofPassages_passages g options kind d).symm,
    fun _ _ h _ _ _ hrow => links_of_oneof_row hitem h hrow⟩
  all_goals
    obtain ⟨hfirst, hblocks⟩ := Draft.failure_append_eq_none_iff.1 hdraft
    have hbody := (Draft.failure_append_eq_none_iff.1 hfirst).2
    have hmessage : d.body g options = m.draft g options.fieldOrder d := by rw [body, hitem]
  · rw [draft, Draft.pieces_append hfirst, Draft.pieces_append rfl, hmessage]
    rfl
  · rw [← hmessage]
    exact (reads_ownBlock hbody).outlineMarks_eq
  · rw [← oneofs_of_message hitem]
    exact (reads_oneofBlocks hblocks).outlineMarks_eq

/-- A message with a group two levels deep, in which a later group has the number of a field. -/
def nestedGroups : Message :=
  let plain (name : String) (tag : Int) : Field :=
    .plain ⟨name, "string", tag, false, false, true, none⟩
  ⟨"M", [plain "a" 1,
    .oneof "outer" [plain "x" 2, .oneof "inner" [.oneof "hollow" [] none, plain "y" 3] none] none,
    .oneof "late" [plain "z" 1] none], none⟩

/-- Sorted by number the table of this message has no row for the field, and all groups have
blocks. -/
theorem subblocks_nestedGroups :
    let file : SchemaFile := ⟨"m.proto", "p", .owned, [], [], [nestedGroups]⟩
    let d : Declaration := ⟨file, .message nestedGroups⟩
    let draft := d.draft (Graph.ofFiles [file]) ⟨"", .tag, .source, []⟩ .message
    d.item = .message nestedGroups ∧ draft.failure = none ∧
      ∃ blocks, draft.pieces =
        Frame.contentDeclaration d (Anchor.declaration .message d.package d.name) ++
          (nestedGroups.draft (Graph.ofFiles [file]) .tag d).pieces ++ blocks ∧
        outlineMarks Attribute.anchor? blocks =
          [.entry "content-Oneof-p-m-outer" "Oneof M.outer",
            .entry "content-Oneof-p-m-inner" "Oneof M.inner",
            .entry "content-Oneof-p-m-hollow" "Oneof M.hollow",
            .entry "content-Oneof-p-m-late" "Oneof M.late"] := by
  intro file d draft
  have hnone : draft.failure = none := by decide +kernel
  obtain ⟨places, groups, hlists, ⟨blocks, hpieces, -, hmarks⟩, -⟩ :=
    subblocks.2.2 (Graph.ofFiles [file]) ⟨"", .tag, .source, []⟩ .message d nestedGroups rfl hnone
  obtain ⟨places', hlists'⟩ := Field.exists_listsGroups_oneofs nestedGroups.fields
  obtain rfl := (hlists.eq hlists').2
  refine ⟨rfl, hnone, blocks, hpieces, hmarks.trans ?_⟩
  decide +kernel

end Declaration
end SchemaPage
