import SchemaPage.Proofs.Outcome
import SchemaPage.Proofs.Page.Draft

/-!
# The links and the anchors of a page

A link is an attribute `href` whose value is a number sign and an anchor; an anchor is an attribute
`name` of an element `a`.  They are read off the pieces of a page here, in their order.

* `Markup.links`, `Markup.anchors`: the links and the anchors in a list of pieces.
* `Markup.Inert`: pieces with neither; most of the frame and of a table is inert.
* `Draft.Shows`: the links and the anchors of a draft that does not stop.
* `shows_table`: a table has the links of its rows.
-/

namespace SchemaPage

/-- The anchor that an attribute links to, if it is a link. -/
def Attribute.target? (a : Attribute) : Option String :=
  match a.name, a.value.toList with
  | "href", '#' :: anchor => some (String.ofList anchor)
  | _, _ => none

/-- The anchor that an attribute of an element `a` gives a name to, if it does. -/
def Attribute.anchor? (a : Attribute) : Option String :=
  if a.name = "name" then some a.value else none

namespace Piece

/-- The anchors that a piece links to. -/
def links : Piece → List String
  | opening _ attributes => attributes.filterMap Attribute.target?
  | metadata attributes => attributes.filterMap Attribute.target?
  | _ => []

/-- The anchors that a piece gives a name to. -/
def anchors : Piece → List String
  | opening .a attributes => attributes.filterMap Attribute.anchor?
  | _ => []

end Piece

namespace Markup

/-- The anchors that are linked to, in the order of the links. -/
def links (pieces : List Piece) : List String := pieces.flatMap Piece.links

/-- The anchors, in their order. -/
def anchors (pieces : List Piece) : List String := pieces.flatMap Piece.anchors

@[simp] theorem links_nil : links [] = [] := rfl

@[simp] theorem anchors_nil : anchors [] = [] := rfl

@[simp] theorem links_cons (p : Piece) (ps : List Piece) : links (p :: ps) = p.links ++ links ps :=
  rfl

@[simp] theorem anchors_cons (p : Piece) (ps : List Piece) :
    anchors (p :: ps) = p.anchors ++ anchors ps := rfl

@[simp] theorem links_append (l r : List Piece) : links (l ++ r) = links l ++ links r :=
  List.flatMap_append

@[simp] theorem anchors_append (l r : List Piece) : anchors (l ++ r) = anchors l ++ anchors r :=
  List.flatMap_append

@[simp] theorem links_flatMap {α : Type} (l : List α) (f : α → List Piece) :
    links (l.flatMap f) = l.flatMap fun a => links (f a) := List.flatMap_assoc

@[simp] theorem anchors_flatMap {α : Type} (l : List α) (f : α → List Piece) :
    anchors (l.flatMap f) = l.flatMap fun a => anchors (f a) := List.flatMap_assoc

@[simp] theorem target?_class (value : String) : (⟨"class", value⟩ : Attribute).target? = none :=
  rfl

@[simp] theorem target?_name (value : String) : (⟨"name", value⟩ : Attribute).target? = none := rfl

@[simp] theorem target?_href (anchor : String) :
    (⟨"href", "#" ++ anchor⟩ : Attribute).target? = some anchor := by
  have h : ("#" ++ anchor).toList = '#' :: anchor.toList := by
    rw [String.toList_append]
    rfl
  unfold Attribute.target?
  simp only [h, String.ofList_toList]

@[simp] theorem anchor?_name (name : String) : (⟨"name", name⟩ : Attribute).anchor? = some name :=
  if_pos (rfl : "name" = "name")

@[simp] theorem links_link (anchor : String) (content : List Piece) :
    links (link anchor content) = anchor :: links content := by
  simp [link, Piece.links]

@[simp] theorem anchors_link (anchor : String) (content : List Piece) :
    anchors (link anchor content) = anchors content := by
  simp [link, Piece.anchors, Attribute.anchor?]

@[simp] theorem links_anchor (name : String) (content : List Piece) :
    links (anchor name content) = links content := by
  simp [anchor, Piece.links]

@[simp] theorem anchors_anchor (name : String) (content : List Piece) :
    anchors (anchor name content) = name :: anchors content := by
  simp [anchor, Piece.anchors]

@[simp] theorem links_element (tag : Tag) (content : List Piece) :
    links (element tag content) = links content := by
  simp [element, Piece.links]

@[simp] theorem links_classed (tag : Tag) (cls : String) (content : List Piece) :
    links (classed tag cls content) = links content := by
  simp [classed, Piece.links]

/-- Only an element `a` has an anchor. -/
theorem anchors_opening {tag : Tag} (h : tag ≠ .a) (attributes : List Attribute) :
    (Piece.opening tag attributes).anchors = [] := by
  cases tag <;> first | rfl | exact absurd rfl h

@[simp] theorem anchors_closing (tag : Tag) : (Piece.closing tag).anchors = [] := rfl

theorem anchors_element {tag : Tag} (h : tag ≠ .a) (content : List Piece) :
    anchors (element tag content) = anchors content := by
  simp [element, anchors_opening h]

theorem anchors_classed {tag : Tag} (h : tag ≠ .a) (cls : String) (content : List Piece) :
    anchors (classed tag cls content) = anchors content := by
  simp [classed, anchors_opening h]

/-- Pieces without a link and without an anchor. -/
def Inert (pieces : List Piece) : Prop := links pieces = [] ∧ anchors pieces = []

theorem inert_nil : Inert [] := ⟨rfl, rfl⟩

theorem inert_append_iff {l r : List Piece} : Inert (l ++ r) ↔ Inert l ∧ Inert r := by
  simp only [Inert, links_append, anchors_append, List.append_eq_nil_iff]
  exact ⟨fun ⟨⟨hl, hr⟩, hl', hr'⟩ => ⟨⟨hl, hl'⟩, hr, hr'⟩,
    fun ⟨⟨hl, hl'⟩, hr, hr'⟩ => ⟨⟨hl, hr⟩, hl', hr'⟩⟩

theorem inert_cons_iff {p : Piece} {ps : List Piece} : Inert (p :: ps) ↔ Inert [p] ∧ Inert ps :=
  inert_append_iff (l := [p])

theorem inert_flatMap {α : Type} {l : List α} {f : α → List Piece} (h : ∀ a ∈ l, Inert (f a)) :
    Inert (l.flatMap f) := by
  induction l with
  | nil => exact inert_nil
  | cons a l ih =>
    rw [List.flatMap_cons, inert_append_iff]
    exact ⟨h a List.mem_cons_self, ih fun b hb => h b (List.mem_cons_of_mem a hb)⟩

theorem inert_element {tag : Tag} (h : tag ≠ .a) {content : List Piece} (hc : Inert content) :
    Inert (element tag content) :=
  ⟨(links_element tag content).trans hc.1, (anchors_element h content).trans hc.2⟩

theorem inert_classed {tag : Tag} (h : tag ≠ .a) (cls : String) {content : List Piece}
    (hc : Inert content) : Inert (classed tag cls content) :=
  ⟨(links_classed tag cls content).trans hc.1, (anchors_classed h cls content).trans hc.2⟩

theorem inert_text (text : String) : Inert [.text text] := ⟨rfl, rfl⟩

end Markup

/-! ## The frame -/

namespace Frame

open Markup

theorem inert_header (title : String) : Inert (header title) := by
  unfold header
  simp only [inert_append_iff]
  refine ⟨⟨⟨⟨⟨rfl, rfl⟩, ?_⟩, ⟨rfl, rfl⟩⟩, ?_⟩, ⟨rfl, rfl⟩⟩
  · exact inert_element (by decide) (inert_text title)
  · exact inert_classed (by decide) _ inert_nil

theorem inert_footer : Inert footer := by
  unfold footer
  simp only [inert_append_iff]
  exact ⟨⟨⟨rfl, rfl⟩, inert_classed (by decide) _ inert_nil⟩, ⟨rfl, rfl⟩⟩

theorem inert_beginNav : Inert beginNav := by
  unfold beginNav
  simp only [inert_append_iff]
  exact ⟨⟨⟨rfl, rfl⟩, inert_element (by decide) (inert_text _)⟩, ⟨rfl, rfl⟩⟩

theorem inert_endNav : Inert endNav := ⟨rfl, rfl⟩

theorem inert_beginContent (title : String) : Inert (beginContent title) := by
  unfold beginContent
  exact inert_append_iff.2 ⟨⟨rfl, rfl⟩, inert_classed (by decide) _ (inert_text title)⟩

theorem inert_endContent : Inert endContent := ⟨rfl, rfl⟩

theorem inert_beginGroup : Inert beginGroup := ⟨rfl, rfl⟩

theorem inert_endGroup : Inert endGroup := ⟨rfl, rfl⟩

theorem inert_note (cls text : String) : Inert (note cls text) := by
  unfold note
  split
  · exact inert_nil
  · exact inert_classed (by decide) cls (inert_text _)

/-- A heading has the links of its content. -/
theorem links_entry (cls : String) (content : List Piece) :
    links (entry cls content) = links content := by
  simp [entry, line, Piece.links]

/-- A heading has the anchors of its content. -/
theorem anchors_entry (cls : String) (content : List Piece) :
    anchors (entry cls content) = anchors content := by
  simp [entry, line, Piece.anchors]

theorem links_navSection (title target : String) : links (navSection title target) = [target] := by
  rw [navSection, links_entry, links_link, (inert_text title).1]

theorem links_beginNavGroup (package target : String) :
    links (beginNavGroup package target) = [target] := by
  rw [beginNavGroup, links_append, inert_beginGroup.1, links_entry, links_link, (inert_text _).1,
    List.nil_append]

theorem links_navDeclaration (name target : String) :
    links (navDeclaration name target) = [target] := by
  rw [navDeclaration, links_entry, links_link, (inert_text name).1]

theorem anchors_navSection (title target : String) : anchors (navSection title target) = [] := by
  rw [navSection, anchors_entry, anchors_link, (inert_text title).2]

theorem anchors_beginNavGroup (package target : String) :
    anchors (beginNavGroup package target) = [] := by
  rw [beginNavGroup, anchors_append, inert_beginGroup.2, anchors_entry, anchors_link,
    (inert_text _).2, List.nil_append]

theorem anchors_navDeclaration (name target : String) :
    anchors (navDeclaration name target) = [] := by
  rw [navDeclaration, anchors_entry, anchors_link, (inert_text name).2]

theorem links_contentSection (title name : String) : links (contentSection title name) = [] := by
  rw [contentSection, links_entry, links_anchor, (inert_text title).1]

theorem anchors_contentSection (title name : String) :
    anchors (contentSection title name) = [name] := by
  rw [contentSection, anchors_entry, anchors_anchor, (inert_text title).2]

theorem links_beginContentGroup (package name : String) :
    links (beginContentGroup package name) = [] := by
  rw [beginContentGroup, links_append, inert_beginGroup.1, links_entry, links_anchor,
    (inert_text _).1, List.nil_append]

theorem anchors_beginContentGroup (package name : String) :
    anchors (beginContentGroup package name) = [name] := by
  rw [beginContentGroup, anchors_append, inert_beginGroup.2, anchors_entry, anchors_anchor,
    (inert_text _).2, List.nil_append]

theorem links_contentDeclaration (d : Declaration) (name : String) :
    links (contentDeclaration d name) = [] := by
  rw [contentDeclaration, links_entry, links_append, links_append, links_anchor, (inert_text _).1,
    (inert_note _ _).1, (inert_note _ _).1, List.append_nil, List.append_nil]

theorem anchors_contentDeclaration (d : Declaration) (name : String) :
    anchors (contentDeclaration d name) = [name] := by
  rw [contentDeclaration, anchors_entry, anchors_append, anchors_append, anchors_anchor,
    (inert_text _).2, (inert_note _ _).2, (inert_note _ _).2, List.append_nil, List.append_nil]

end Frame

/-! ## Drafts -/

/-- Unless it stops, the draft has the links `targets` and the anchors `names`. -/
def Draft.Shows (d : Draft) (targets names : List String) : Prop :=
  d.failure = none → Markup.links d.pieces = targets ∧ Markup.anchors d.pieces = names

namespace Draft.Shows

open Markup

theorem ofPieces {pieces : List Piece} {targets names : List String} (hl : links pieces = targets)
    (ha : anchors pieces = names) : (Draft.ofPieces pieces).Shows targets names := fun _ => ⟨hl, ha⟩

theorem ofInert {pieces : List Piece} (h : Inert pieces) : (Draft.ofPieces pieces).Shows [] [] :=
  ofPieces h.1 h.2

theorem ofExcept {r : Except ResolveError (List Piece)} {targets names : List String}
    (h : ∀ pieces, r = .ok pieces → links pieces = targets ∧ anchors pieces = names) :
    (Draft.ofExcept r).Shows targets names := by
  intro hnone
  obtain ⟨pieces, rfl⟩ := failure_ofExcept_eq_none_iff.1 hnone
  exact h pieces rfl

theorem append {d e : Draft} {targets names targets' names' : List String}
    (hd : d.Shows targets names) (he : e.Shows targets' names') :
    (d ++ e).Shows (targets ++ targets') (names ++ names') := by
  intro hnone
  obtain ⟨hdn, hen⟩ := failure_append_eq_none_iff.1 hnone
  rw [pieces_append hdn, links_append, anchors_append, (hd hdn).1, (hd hdn).2, (he hen).1,
    (he hen).2]
  exact ⟨rfl, rfl⟩

theorem concat {α : Type} {l : List α} {f : α → Draft} {targets names : α → List String}
    (h : ∀ a ∈ l, (f a).Shows (targets a) (names a)) :
    (Draft.concat (l.map f)).Shows (l.flatMap targets) (l.flatMap names) := by
  induction l with
  | nil => exact ofInert inert_nil
  | cons a l ih =>
    exact append (h a List.mem_cons_self) (ih fun b hb => h b (List.mem_cons_of_mem a hb))

/-- Inert pieces around a draft change nothing. -/
theorem between {before after : List Piece} {d : Draft} {targets names : List String}
    (hb : Inert before) (hd : d.Shows targets names) (ha : Inert after) :
    (Draft.ofPieces before ++ d ++ Draft.ofPieces after).Shows targets names := by
  have h := ((ofInert hb).append hd).append (ofInert ha)
  rwa [List.nil_append, List.nil_append, List.append_nil, List.append_nil] at h

end Draft.Shows

/-! ## Tables -/

section Tables

open Markup

theorem inert_commentPieces (comment : Option Comment) : Inert (commentPieces comment) := by
  have htext : ∀ lines : List String, Inert ((lines.map Piece.text).intersperse .lineBreak) := by
    intro lines
    induction lines with
    | nil => exact inert_nil
    | cons l lines ih =>
      cases lines with
      | nil => exact inert_text l
      | cons m lines =>
        rw [List.map_cons, List.map_cons, List.intersperse_cons_cons]
        exact inert_cons_iff.2 ⟨inert_text l, inert_cons_iff.2 ⟨⟨rfl, rfl⟩, ih⟩⟩
  cases comment with
  | none => exact inert_nil
  | some c => exact htext c.trimmed

theorem inert_description (comment : Option Comment) : Inert (description comment) := by
  unfold description
  split
  · exact inert_nil
  · rename_i hcomment
    exact inert_classed (by decide) _
      (inert_element (by decide) (inert_commentPieces comment))

theorem inert_beginDefinition (kind : String) (comment : Option Comment) :
    Inert (beginDefinition kind comment) := by
  unfold beginDefinition
  rw [inert_cons_iff]
  exact ⟨⟨rfl, rfl⟩, inert_description comment⟩

theorem inert_beginTable {attributes : List Attribute}
    (h : attributes.filterMap Attribute.target? = []) (titles : List String) :
    Inert (beginTable attributes titles) := by
  unfold beginTable
  simp only [inert_append_iff]
  refine ⟨⟨⟨?_, rfl⟩, inert_flatMap fun title _ => inert_element (by decide) (inert_text title)⟩,
    ⟨rfl, rfl⟩⟩
  simp [Piece.links, line, h]

theorem inert_endTable : Inert endTable := ⟨rfl, rfl⟩

/-- A row has the links of its cells. -/
theorem links_row (depth : Nat) (row : Row) :
    links (row.pieces depth) = row.flatMap fun cell => links cell.content := by
  simp [Row.pieces, line, Piece.links]

/-- A row has the anchors of its cells. -/
theorem anchors_row (depth : Nat) (row : Row) :
    anchors (row.pieces depth) = row.flatMap fun cell => anchors cell.content := by
  have hcell : ∀ cell : Cell, anchors (classed .td cell.cls cell.content) = anchors cell.content :=
    fun cell => anchors_classed (by decide) cell.cls cell.content
  simp [Row.pieces, line, Piece.anchors, hcell]

/-- A table has the links of its rows, and no anchor when they have none. -/
theorem shows_table {α : Type} {attributes : List Attribute}
    (ha : attributes.filterMap Attribute.target? = []) (titles : List String) (depth : Nat)
    {members : List α} {row : α → Except ResolveError Row} {link : α → List String}
    (hrow : ∀ a ∈ members, ∀ r, row a = .ok r →
      links (r.pieces depth) = link a ∧ anchors (r.pieces depth) = []) :
    (table attributes titles depth (members.map row)).Shows (members.flatMap link) [] := by
  have hmember : ∀ a ∈ members,
      (Draft.ofExcept ((row a).map (Row.pieces depth))).Shows (link a) [] := by
    intro a ha
    refine Draft.Shows.ofExcept fun pieces hp => ?_
    obtain ⟨r, hr, rfl⟩ := Outcome.map_eq_ok_iff.1 hp
    exact hrow a ha r hr
  have hrows : (Draft.concat ((members.map row).map fun r =>
      .ofExcept (r.map (Row.pieces depth)))).Shows (members.flatMap link) [] := by
    have h := Draft.Shows.concat hmember
    rw [List.map_map]
    rwa [List.flatMap_eq_nil_iff.2 fun _ _ => rfl] at h
  exact Draft.Shows.between (inert_beginTable ha titles) hrows inert_endTable

end Tables

end SchemaPage
