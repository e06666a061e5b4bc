import SchemaPage.Proofs.Page.Blocks
import SchemaPage.Proofs.Text.Clean

/-!
# The grammar of a page

A stretch of a page that is built from texts, fixed pieces and closed elements is a fragment.  What
is inside an element is itself a fragment, and an element begins in one of finitely many ways or is
a link to, or the name of, an anchor.  Every block of a page is a fragment, however the tables in it
turn out, and so is the page.

The frame opens an element in one definition and closes it in another.  Such a pair is no fragment
by itself, but it makes a fragment of a fragment that stands between the two.

* `Grammar.singles`, `Grammar.blockHeads`, `Grammar.pageHeads`: the fixed pieces and elements.
* `Markup.Fragment`: stretches in which every element is closed.
* `Draft.Forms`: a draft that comes out as a fragment.
* `Declaration.forms_body`, `Declaration.forms_oneofBlocks`: the blocks of a declaration.
* `Document.forms_draft`: the page.
-/

namespace SchemaPage

open Markup

/-! ## What a page is built from -/

namespace Grammar

/-- The stylesheet of the page. -/
def sheet : Piece := .stylesheet (Stylesheet.render "        " Stylesheet.page)

/-- The pieces that stand alone, besides texts and the stylesheet. -/
def marks : List Piece :=
  [.doctype, .metadata [⟨"charset", "UTF-8"⟩],
    .metadata [⟨"name", "viewport"⟩, ⟨"content", "width=device-width, initial-scale=1"⟩],
    .lineBreak, .space "    ", line "", line "    ", line "        ", line "            ",
    line (tabs 1), line (tabs 2), line (tabs 3), line (tabs 4)]

/-- The pieces that stand alone, besides texts. -/
def singles : List Piece := sheet :: marks

/-- The classes of the cells of a table. -/
def cellClasses : List String :=
  ["fld-svc-method", "fld-svc-req", "fld-svc-ret", "fld-svc-doc", "fld-enum-name", "fld-enum-value",
    "fld-enum-doc", "fld-msg-fieldname", "fld-msg-type", "fld-msg-opt", "fld-msg-doc"]

/-- The classes of the parts of a block. -/
def blockClasses : List String :=
  ["list", "description", "definition service", "definition enum", "definition message",
    "definition oneof", "ns-itemsub"]

/-- The elements in the block of a declaration that are neither links nor anchors. -/
def blockHeads : List (Tag × List Attribute) :=
  [(.p, []), (.table, []), (.table, [⟨"class", "oneof"⟩]), (.tr, []), (.th, [])] ++
  cellClasses.map (fun cls => (.td, [⟨"class", cls⟩])) ++
  blockClasses.map (fun cls => (.div, [⟨"class", cls⟩]))

/-- The classes of the parts of the frame. -/
def frameClasses : List String :=
  ["body", "nav", "nav-header", "menu", "content", "item", "ns", "ns-item"]

/-- The elements around the blocks that are neither links nor anchors. -/
def frameHeads : List (Tag × List Attribute) :=
  [(.html, [⟨"lang", "en"⟩]), (.head, []), (.title, []), (.style, [⟨"type", "text/css"⟩]),
    (.body, []), (.header, [⟨"class", "header"⟩]), (.footer, [⟨"class", "footer"⟩]), (.h1, []),
    (.h1, [⟨"class", "content-header"⟩]), (.part, [⟨"class", "ns-group"⟩]),
    (.span, [⟨"class", "pkg"⟩]), (.span, [⟨"class", "filename"⟩])] ++
  frameClasses.map (fun cls => (.div, [⟨"class", cls⟩]))

/-- The elements of a page that are neither links nor anchors. -/
def pageHeads : List (Tag × List Attribute) := frameHeads ++ blockHeads

theorem blockHeads_subset_pageHeads : blockHeads ⊆ pageHeads := List.subset_append_right _ _

/-- The beginning of a link to an anchor, or of an anchor. -/
inductive Refers : Tag → List Attribute → Prop
  | link {x : String} (h : Text.IsPlain x.toList) : Refers .a [⟨"href", "#" ++ x⟩]
  | anchor {x : String} (h : Text.IsPlain x.toList) : Refers .a [⟨"name", x⟩]

end Grammar

open Grammar

/-! ## Fragments -/

/-- A stretch of markup that is built from texts, fixed pieces and closed elements.  The elements
are links, anchors and those that begin as in `heads`. -/
inductive Markup.Fragment (heads : List (Tag × List Attribute)) : List Piece → Prop
  | nil : Fragment heads []
  | text (t : String) : Fragment heads [.text t]
  | single {p : Piece} (h : p ∈ singles) : Fragment heads [p]
  | element {tag : Tag} {attributes : List Attribute} {content : List Piece}
      (h : (tag, attributes) ∈ heads ∨ Refers tag attributes) (hc : Fragment heads content) :
      Fragment heads (.opening tag attributes :: content ++ [.closing tag])
  | append {l r : List Piece} (hl : Fragment heads l) (hr : Fragment heads r) :
      Fragment heads (l ++ r)

namespace Markup.Fragment

variable {heads heads' : List (Tag × List Attribute)} {content : List Piece}

/-- More elements make more fragments. -/
theorem mono {pieces : List Piece} (hsub : heads ⊆ heads') (h : Fragment heads pieces) :
    Fragment heads' pieces := by
  induction h with
  | nil => exact nil
  | text t => exact text t
  | single h => exact single h
  | element h _ ih => exact element (h.imp_left fun hmem => hsub hmem) ih
  | append _ _ ihl ihr => exact append ihl ihr

theorem cons {p : Piece} {ps : List Piece} (hp : Fragment heads [p]) (hps : Fragment heads ps) :
    Fragment heads (p :: ps) := append hp hps

theorem flatMap {α : Type} {l : List α} {f : α → List Piece} (h : ∀ a ∈ l, Fragment heads (f a)) :
    Fragment heads (l.flatMap f) := by
  induction l with
  | nil => exact nil
  | cons a l ih =>
    exact append (h a List.mem_cons_self) (ih fun b hb => h b (List.mem_cons_of_mem a hb))

/-- Pieces that stand alone, one after the other. -/
theorem of_forall_mem {l : List Piece} (h : ∀ p ∈ l, p ∈ marks) : Fragment heads l := by
  induction l with
  | nil => exact nil
  | cons p l ih =>
    exact cons (single (List.mem_cons_of_mem _ (h p List.mem_cons_self)))
      (ih fun q hq => h q (List.mem_cons_of_mem p hq))

theorem plain {tag : Tag} (h : (tag, []) ∈ heads) (hc : Fragment heads content) :
    Fragment heads (Markup.element tag content) := element (Or.inl h) hc

theorem classed {tag : Tag} {cls : String} (h : (tag, [⟨"class", cls⟩]) ∈ heads)
    (hc : Fragment heads content) : Fragment heads (Markup.classed tag cls content) :=
  element (Or.inl h) hc

theorem link {x : String} (h : Text.IsPlain x.toList) (hc : Fragment heads content) :
    Fragment heads (Markup.link x content) := element (Or.inr (.link h)) hc

theorem anchor {x : String} (h : Text.IsPlain x.toList) (hc : Fragment heads content) :
    Fragment heads (Markup.anchor x content) := element (Or.inr (.anchor h)) hc

end Markup.Fragment

/-! ## Drafts -/

/-- Unless it stops, the draft is a fragment. -/
def Draft.Forms (heads : List (Tag × List Attribute)) (d : Draft) : Prop :=
  d.failure = none → Fragment heads d.pieces

namespace Draft.Forms

variable {heads heads' : List (Tag × List Attribute)} {d e : Draft}

theorem mono (hsub : heads ⊆ heads') (h : d.Forms heads) : d.Forms heads' :=
  fun hnone => (h hnone).mono hsub

theorem ofPieces {pieces : List Piece} (h : Fragment heads pieces) :
    (Draft.ofPieces pieces).Forms heads := fun _ => h

theorem append (hd : d.Forms heads) (he : e.Forms heads) : (d ++ e).Forms heads := by
  intro hnone
  obtain ⟨hdn, hen⟩ := failure_append_eq_none_iff.1 hnone
  rw [pieces_append hdn]
  exact (hd hdn).append (he hen)

theorem concat {ds : List Draft} (h : ∀ d ∈ ds, d.Forms heads) : (Draft.concat ds).Forms heads := by
  intro hnone
  have hds := failure_concat_eq_none_iff.1 hnone
  rw [pieces_concat hds]
  exact Fragment.flatMap fun d hd => h d hd (hds d hd)

/-- What makes a fragment of every fragment between its two parts does so of a draft. -/
theorem between {before after : List Piece}
    (h : ∀ content, Fragment heads content → Fragment heads (before ++ content ++ after))
    (hd : d.Forms heads) : (Draft.ofPieces before ++ d ++ Draft.ofPieces after).Forms heads := by
  intro hnone
  obtain ⟨hbefore, -⟩ := failure_append_eq_none_iff.1 hnone
  have hdn := (failure_append_eq_none_iff.1 hbefore).2
  rw [pieces_append hbefore, pieces_append rfl]
  exact h d.pieces (hd hdn)

end Draft.Forms

/-! ## Rows and tables -/

section Tables

variable {g : Graph} {d : Declaration}

theorem fragment_commentPieces (comment : Option Comment) :
    Fragment blockHeads (commentPieces comment) := by
  have hlines : ∀ lines : List String,
      Fragment blockHeads ((lines.map Piece.text).intersperse .lineBreak) := by
    intro lines
    induction lines with
    | nil => exact .nil
    | cons l lines ih =>
      cases lines with
      | nil => exact .text l
      | cons m lines =>
        rw [List.map_cons, List.map_cons, List.intersperse_cons_cons]
        exact .cons (.text l) (.cons (.of_forall_mem (by decide)) ih)
  cases comment with
  | none => exact .nil
  | some c => exact hlines c.trimmed

theorem fragment_description (comment : Option Comment) :
    Fragment blockHeads (description comment) := by
  unfold description
  split
  · exact .nil
  · exact .classed (by decide) (.plain (by decide) (fragment_commentPieces comment))

/-- A reference is shown as a text, inside a link when it has one. -/
theorem Reference.fragment_pieces {r : Reference}
    (h : ∀ x, r.link = some x → Text.IsPlain x.toList) :
    Fragment blockHeads r.pieces := by
  unfold pieces
  split
  · rename_i x hx
    exact .link (h x hx) (.text _)
  · exact .text _

/-- A type name links to a plain anchor. -/
theorem Reference.isPlain_link {w : String} {r : Reference} (h : ofType g d w = .ok r) :
    ∀ x, r.link = some x → Text.IsPlain x.toList := by
  intro x hx
  rw [link_ofType h] at hx
  obtain ⟨target, -, -, rfl⟩ := Graph.linkOf?_eq_some_iff.1 hx
  exact Anchor.isPlain_ofType target

theorem Reference.fragment_ofType {w : String} {r : Reference} (h : ofType g d w = .ok r) :
    Fragment blockHeads r.pieces := fragment_pieces (isPlain_link h)

theorem Field.fragment_typePieces {f : Field} {pieces : List Piece}
    (h : f.typePieces g d = .ok pieces) : Fragment blockHeads pieces := by
  cases f with
  | plain f =>
    obtain ⟨r, hr, h⟩ := Outcome.bind_eq_ok_iff.1 h
    obtain rfl := Except.ok.inj h
    refine Reference.fragment_pieces fun x hx => Reference.isPlain_link hr x ?_
    rw [← hx]
    split <;> rfl
  | map f =>
    obtain ⟨key, hk, h⟩ := Outcome.bind_eq_ok_iff.1 h
    obtain ⟨value, hv, h⟩ := Outcome.bind_eq_ok_iff.1 h
    obtain rfl := Except.ok.inj h
    exact ((((Fragment.text "map<").append (Reference.fragment_ofType hk)).append
      (.text ", ")).append
      (Reference.fragment_ofType hv)).append (.text ">")
  | oneof name members comment =>
    obtain rfl := Except.ok.inj h
    refine Reference.fragment_pieces fun x hx => ?_
    obtain rfl := Option.some_inj.1 hx
    exact Anchor.isPlain_oneof d.fullName name

/-- A row is a fragment when its cells are. -/
theorem Row.fragment_pieces {row : Row} {depth : Nat} (hdepth : depth ∈ [2, 3])
    (h : ∀ cell ∈ row, cell.cls ∈ cellClasses ∧ Fragment blockHeads cell.content) :
    Fragment blockHeads (row.pieces depth) := by
  have hlines : line (tabs depth) ∈ marks ∧ line (tabs (depth + 1)) ∈ marks := by
    revert depth
    decide
  have hindent : ∀ {p : Piece}, p ∈ marks → Fragment blockHeads [p] := fun hp =>
    .single (List.mem_cons_of_mem _ hp)
  have hcells : Fragment blockHeads
      (row.flatMap fun cell => line (tabs (depth + 1)) :: classed .td cell.cls cell.content) := by
    refine .flatMap fun cell hcell => .cons (hindent hlines.2) ?_
    obtain ⟨hcls, hcontent⟩ := h cell hcell
    refine .classed ?_ hcontent
    exact List.mem_append_left _ (List.mem_append_right _ (List.mem_map_of_mem hcls))
  have hrow : Fragment blockHeads (element .tr _) :=
    .plain (by decide) (hcells.append (hindent hlines.1))
  simpa [Row.pieces, element] using Fragment.cons (hindent hlines.1) hrow

theorem Field.fragment_row {f : Field} {row : Row} (h : f.row g d = .ok row) :
    Fragment blockHeads (row.pieces 3) := by
  obtain ⟨type, htype, h⟩ := Outcome.bind_eq_ok_iff.1 h
  obtain rfl := Except.ok.inj h
  refine Row.fragment_pieces (by decide) ?_
  simp only [List.forall_mem_cons]
  exact ⟨⟨by decide, .text _⟩, ⟨by decide, fragment_typePieces htype⟩, ⟨by decide, .text _⟩,
    ⟨by decide, fragment_commentPieces f.comment⟩, nofun⟩

theorem Rpc.fragment_row {r : Rpc} {row : Row} (h : r.row g d = .ok row) :
    Fragment blockHeads (row.pieces 2) := by
  obtain ⟨request, hq, h⟩ := Outcome.bind_eq_ok_iff.1 h
  obtain ⟨response, hp, h⟩ := Outcome.bind_eq_ok_iff.1 h
  obtain rfl := Except.ok.inj h
  refine Row.fragment_pieces (by decide) ?_
  simp only [List.forall_mem_cons]
  exact ⟨⟨by decide, .text _⟩, ⟨by decide, Reference.fragment_ofType hq⟩,
    ⟨by decide, Reference.fragment_ofType hp⟩, ⟨by decide, fragment_commentPieces r.comment⟩, nofun⟩

theorem EnumConstant.fragment_row (c : EnumConstant) : Fragment blockHeads (c.row.pieces 2) := by
  refine Row.fragment_pieces (by decide) ?_
  unfold row
  simp only [List.forall_mem_cons]
  exact ⟨⟨by decide, .text _⟩, ⟨by decide, .text _⟩, ⟨by decide, fragment_commentPieces c.comment⟩,
    nofun⟩

/-- A table closes what it opens around its rows. -/
theorem fragment_table {attributes : List Attribute} (ha : (Tag.table, attributes) ∈ blockHeads)
    (titles : List String) {rows : List Piece} (hrows : Fragment blockHeads rows) :
    Fragment blockHeads (beginTable attributes titles ++ rows ++ endTable) := by
  have hindent : ∀ {p : Piece}, p ∈ marks → Fragment blockHeads [p] := fun hp =>
    .single (List.mem_cons_of_mem _ hp)
  have htitles : Fragment blockHeads (titles.flatMap fun title => element .th [.text title]) :=
    .flatMap fun title _ => .plain (by decide) (.text title)
  have hcolumns : Fragment blockHeads (element .tr (line (tabs 4) ::
      ((titles.flatMap fun title => element .th [.text title]) ++ [line (tabs 3)]))) :=
    .plain (by decide) (.cons (hindent (by decide)) (htitles.append (hindent (by decide))))
  have htable :=
    Fragment.element (Or.inl ha) (Fragment.cons (hindent (by decide : line (tabs 3) ∈ marks))
      (hcolumns.append hrows))
  have hlist : Fragment blockHeads (classed .div "list" _) :=
    .classed (by decide) (.cons (hindent (by decide : line (tabs 2) ∈ marks))
      (htable.append (hindent (by decide : line (tabs 1) ∈ marks))))
  simpa [beginTable, endTable, classed, element] using hlist

theorem forms_table {attributes : List Attribute} (ha : (Tag.table, attributes) ∈ blockHeads)
    (titles : List String) {depth : Nat} {rows : List (Except ResolveError Row)}
    (hrows : ∀ row ∈ rows, ∀ r, row = .ok r → Fragment blockHeads (r.pieces depth)) :
    (table attributes titles depth rows).Forms blockHeads := by
  refine .between (fun _ => fragment_table ha titles) (.concat fun draft hdraft hnone => ?_)
  obtain ⟨row, hrow, rfl⟩ := List.mem_map.1 hdraft
  obtain ⟨pieces, hpieces⟩ := Draft.failure_ofExcept_eq_none_iff.1 hnone
  obtain ⟨r, rfl, rfl⟩ := Outcome.map_eq_ok_iff.1 hpieces
  exact hrows _ hrow r rfl

theorem forms_fieldTable (g : Graph) (order : FieldOrder) (d : Declaration)
    {attributes : List Attribute} (ha : (Tag.table, attributes) ∈ blockHeads)
    (fields : List Field) :
    (fieldTable g order d attributes fields).Forms blockHeads := by
  refine forms_table ha _ fun row hrow r hr => ?_
  obtain ⟨f, -, hf⟩ := List.mem_map.1 hrow
  exact Field.fragment_row (hf.trans hr)

end Tables

/-! ## Blocks -/

/-- The block of a declaration closes what it opens. -/
theorem fragment_definition (kind : String) (hkind : "definition " ++ kind ∈ blockClasses)
    (comment : Option Comment) (after : List Piece) (hafter : ∀ p ∈ after, p ∈ marks)
    {content : List Piece} (hc : Fragment blockHeads content) :
    Fragment blockHeads
      (beginDefinition kind comment ++ content ++ (after ++ [.closing .div])) := by
  have hdiv : (Tag.div, [⟨"class", "definition " ++ kind⟩]) ∈ blockHeads :=
    List.mem_append_right _ (List.mem_map_of_mem hkind)
  have h := Fragment.element (Or.inl hdiv)
    (((fragment_description comment).append hc).append (.of_forall_mem hafter))
  simpa [beginDefinition] using h

theorem Oneof.fragment_heading (context : Declaration) (group : Oneof) :
    Fragment blockHeads (group.heading context) := by
  have hname : Fragment blockHeads (anchor (Anchor.oneof context.fullName group.name)
      [.text ("Oneof " ++ context.name ++ "." ++ group.name)]) :=
    .anchor (Anchor.isPlain_oneof _ _) (.text _)
  have hafter : Fragment blockHeads [line (tabs 3)] := .of_forall_mem (by decide)
  have h : Fragment blockHeads (classed .div "ns-itemsub" (line (tabs 4) :: _)) :=
    .classed (by decide) (.cons (.of_forall_mem (by decide)) (hname.append hafter))
  simpa [heading, classed] using h

/-- The block of a group of fields is a fragment. -/
theorem Oneof.forms_draft (g : Graph) (order : FieldOrder) (d : Declaration) (group : Oneof) :
    (group.draft g order d).Forms blockHeads := by
  have hblock := fun content (hc : Fragment blockHeads content) =>
    (group.fragment_heading d).append
      (fragment_definition "oneof" (by decide) group.comment [] nofun hc)
  refine Draft.Forms.between (fun content hc => ?_)
    (forms_fieldTable g order d (by decide) group.members)
  simpa using hblock content hc

namespace Declaration

variable (g : Graph) (options : PageOptions) (d : Declaration)

/-- The block of a declaration, without its groups of fields, is a fragment. -/
theorem forms_body : (d.body g options).Forms blockHeads := by
  unfold body
  cases d.item with
  | service s =>
    refine .between (fun _ => fragment_definition "service" (by decide) s.comment
      [line (tabs 1)] (by decide)) ?_
    refine forms_table (by decide) _ fun row hrow r hr => ?_
    obtain ⟨rpc, -, hrpc⟩ := List.mem_map.1 hrow
    exact Rpc.fragment_row (hrpc.trans hr)
  | enumeration e =>
    refine .between (fun _ => fragment_definition "enum" (by decide) e.comment
      [line (tabs 1)] (by decide)) ?_
    refine forms_table (by decide) _ fun row hrow r hr => ?_
    obtain ⟨c, -, hc⟩ := List.mem_map.1 hrow
    obtain rfl := Except.ok.inj (hc.trans hr)
    exact EnumConstant.fragment_row c
  | message m =>
    refine .between (fun _ => fragment_definition "message" (by decide) m.comment [] nofun) ?_
    exact forms_fieldTable g options.fieldOrder d (by decide) m.fields

/-- The blocks of the groups of a declaration are fragments. -/
theorem forms_oneofBlocks (groups : List Oneof) :
    (d.oneofBlocks g options groups).Forms blockHeads := by
  refine .concat fun draft hdraft => ?_
  obtain ⟨group, -, rfl⟩ := List.mem_map.1 hdraft
  exact Oneof.forms_draft g options.fieldOrder d group

end Declaration

/-! ## The frame -/

namespace Frame

variable {content : List Piece}

/-- A heading is a fragment when its content is. -/
theorem fragment_entry {cls : String} (hcls : cls ∈ frameClasses)
    (hc : Fragment pageHeads content) :
    Fragment pageHeads (entry cls content) := by
  have hdiv : (Tag.div, [⟨"class", cls⟩]) ∈ pageHeads :=
    List.mem_append_left _ (List.mem_append_right _ (List.mem_map_of_mem hcls))
  have houter : Fragment pageHeads [line "        "] := .of_forall_mem (by decide)
  have hinner : Fragment pageHeads [line "            "] := .of_forall_mem (by decide)
  have hentry := Fragment.classed hdiv ((hinner.append hc).append houter)
  simpa [entry, classed] using houter.append hentry

/-- A link in the navigation pane. -/
theorem fragment_navEntry {cls target : String} (hcls : cls ∈ frameClasses)
    (h : Text.IsPlain target.toList) (label : String) :
    Fragment pageHeads (entry cls (link target [.text label])) :=
  fragment_entry hcls (.link h (.text label))

/-- A heading in the content pane. -/
theorem fragment_contentEntry {cls name : String} (hcls : cls ∈ frameClasses)
    (h : Text.IsPlain name.toList) (label : String) :
    Fragment pageHeads (entry cls (anchor name [.text label])) :=
  fragment_entry hcls (.anchor h (.text label))

theorem fragment_note {cls : String}
    (h : (Tag.span, [⟨"class", cls⟩]) ∈ pageHeads) (text : String) :
    Fragment pageHeads (note cls text) := by
  unfold note
  split
  · exact .nil
  · exact .classed h (.text _)

/-- The group of a package closes what it opens. -/
theorem fragment_group (hc : Fragment pageHeads content) :
    Fragment pageHeads (beginGroup ++ content ++ endGroup) := by
  have hline : Fragment pageHeads [line "        "] := .of_forall_mem (by decide)
  have hgroup : Fragment pageHeads (classed .part "ns-group" _) :=
    .classed (by decide) (hc.append hline)
  simpa [beginGroup, endGroup, classed] using hline.append hgroup

/-- The navigation pane closes what it opens. -/
theorem fragment_nav (hc : Fragment pageHeads content) :
    Fragment pageHeads (beginNav ++ content ++ endNav) := by
  have houter : Fragment pageHeads [line "    "] := .of_forall_mem (by decide)
  have hinner : Fragment pageHeads [line "        "] := .of_forall_mem (by decide)
  have htitle : Fragment pageHeads (element .h1 [.text "Table of Contents"]) :=
    .plain (by decide) (.text _)
  have hheader : Fragment pageHeads (classed .div "nav-header" (line "            " :: _)) :=
    .classed (by decide) (.cons (.of_forall_mem (by decide)) (htitle.append hinner))
  have hmenu : Fragment pageHeads (classed .div "menu" _) := .classed (by decide) (hc.append hinner)
  have hnav : Fragment pageHeads (classed .div "nav" _) := .classed (by decide)
    (((hinner.append hheader).append (hinner.append hmenu)).append houter)
  have hend : Fragment pageHeads [line ""] := .of_forall_mem (by decide)
  simpa [beginNav, endNav, classed, element] using (houter.append hnav).append hend

/-- The content pane closes what it opens. -/
theorem fragment_content (title : String) (hc : Fragment pageHeads content) :
    Fragment pageHeads (beginContent title ++ content ++ endContent) := by
  have houter : Fragment pageHeads [line "    "] := .of_forall_mem (by decide)
  have hinner : Fragment pageHeads [line "        "] := .of_forall_mem (by decide)
  have htitle : Fragment pageHeads (classed .h1 "content-header" [.text title]) :=
    .classed (by decide) (.text title)
  have hpane : Fragment pageHeads (classed .div "content" _) := .classed (by decide)
    (((hinner.append htitle).append hc).append houter)
  have hend : Fragment pageHeads [line ""] := .of_forall_mem (by decide)
  simpa [beginContent, endContent, classed] using (houter.append hpane).append hend

/-- The page closes what it opens around the panes. -/
theorem fragment_page (title : String) (hc : Fragment pageHeads content) :
    Fragment pageHeads (header title ++ content ++ footer) := by
  have hstart : Fragment pageHeads [line ""] := .of_forall_mem (by decide)
  have hindent : Fragment pageHeads [line "    "] := .of_forall_mem (by decide)
  have htitle : Fragment pageHeads (element .title [.text title]) :=
    .plain (by decide) (.text title)
  have hstyle : Fragment pageHeads
      (.opening .style [⟨"type", "text/css"⟩] :: _ ++ [.closing .style]) :=
    .element (Or.inl (by decide)) ((hstart.append (.single List.mem_cons_self)).append
      (.of_forall_mem (l := [.space "    "]) (by decide)))
  have hmeta : Fragment pageHeads [line "    ", .metadata [⟨"charset", "UTF-8"⟩], line "    ",
      .metadata [⟨"name", "viewport"⟩, ⟨"content", "width=device-width, initial-scale=1"⟩],
      line "    "] := .of_forall_mem (by decide)
  have hhead : Fragment pageHeads (element .head _) := .plain (by decide)
    ((((hmeta.append htitle).append hindent).append hstyle).append hstart)
  have hbanner : Fragment pageHeads (classed .header "header" []) := .classed (by decide) .nil
  have hpanes : Fragment pageHeads (classed .div "body" _) :=
    .classed (by decide) (hc.append hstart)
  have hfooter : Fragment pageHeads (classed .footer "footer" []) := .classed (by decide) .nil
  have hbody : Fragment pageHeads (element .body _) := .plain (by decide)
    ((((((hstart.append hstart).append hbanner).append (hstart.append hpanes)).append hstart).append
      hfooter).append (hstart.append hstart))
  have hhtml : Fragment pageHeads (.opening .html [⟨"lang", "en"⟩] :: _ ++ [.closing .html]) :=
    .element (Or.inl (by decide))
      (((hstart.append hhead).append (hstart.append hbody)).append hstart)
  have hdoctype : Fragment pageHeads [.doctype, line ""] := .of_forall_mem (by decide)
  simpa [header, footer, classed, element, sheet] using hdoctype.append hhtml

end Frame

/-! ## The page -/

namespace Document

variable (g : Graph) (options : PageOptions)

theorem fragment_navGroup (kind : Kind) (group : PackageGroup) :
    Fragment pageHeads (navGroup kind group) := by
  have hheading : Fragment pageHeads (Frame.entry "ns" (link (Anchor.group kind group.package)
      [.text (Frame.packageLabel group.package)])) :=
    Frame.fragment_navEntry (by decide) (Anchor.isPlain_group kind group.package) _
  have hentries : Fragment pageHeads (group.declarations.flatMap fun d =>
      Frame.navDeclaration d.name (Anchor.declaration kind d.package d.name)) :=
    .flatMap fun d _ =>
      Frame.fragment_navEntry (by decide) (Anchor.isPlain_declaration kind d.package d.name) _
  simpa [navGroup, Frame.beginNavGroup] using Frame.fragment_group (hheading.append hentries)

theorem fragment_nav (sections : List Section) : Fragment pageHeads (nav sections) := by
  refine Frame.fragment_nav (.flatMap fun s _ => .append ?_ (.flatMap fun group _ => ?_))
  · exact Frame.fragment_navEntry (by decide) (Anchor.isPlain_ofKind s.kind) _
  · exact fragment_navGroup s.kind group

/-- The heading and the blocks of a declaration are a fragment. -/
theorem forms_declaration (kind : Kind) (d : Declaration) :
    (d.draft g options kind).Forms pageHeads := by
  have hname : Fragment pageHeads
      (anchor (Anchor.declaration kind d.package d.name) [.text d.name]) :=
    .anchor (Anchor.isPlain_declaration kind d.package d.name) (.text _)
  have hheading : Fragment pageHeads
      (Frame.contentDeclaration d (Anchor.declaration kind d.package d.name)) :=
    Frame.fragment_entry (by decide) ((hname.append (Frame.fragment_note (by decide) _)).append
      (Frame.fragment_note (by decide) _))
  exact ((Draft.Forms.ofPieces hheading).append
    ((d.forms_body g options).mono blockHeads_subset_pageHeads)).append
    ((d.forms_oneofBlocks g options d.oneofs).mono blockHeads_subset_pageHeads)

theorem forms_contentGroup (kind : Kind) (group : PackageGroup) :
    (contentGroup g options kind group).Forms pageHeads := by
  have hheading : Fragment pageHeads (Frame.entry "ns" (anchor (Anchor.group kind group.package)
      [.text (Frame.packageLabel group.package)])) :=
    Frame.fragment_contentEntry (by decide) (Anchor.isPlain_group kind group.package) _
  refine .between (fun content hc => ?_) (.concat fun draft hdraft => ?_)
  · simpa [Frame.beginContentGroup] using Frame.fragment_group (hheading.append hc)
  · obtain ⟨d, -, rfl⟩ := List.mem_map.1 hdraft
    exact forms_declaration g options kind d

theorem forms_content (sections : List Section) : (content g options sections).Forms pageHeads := by
  refine .between (fun _ => Frame.fragment_content options.title) (.concat fun draft hdraft => ?_)
  obtain ⟨s, -, rfl⟩ := List.mem_map.1 hdraft
  refine .append (.ofPieces ?_) (.concat fun draft hdraft => ?_)
  · exact Frame.fragment_contentEntry (by decide) (Anchor.isPlain_ofKind s.kind) _
  · obtain ⟨group, -, rfl⟩ := List.mem_map.1 hdraft
    exact forms_contentGroup g options s.kind group

/-- A page is a fragment: it closes whatever it opens. -/
theorem forms_draft : (draft g options).Forms pageHeads := by
  have hpanes := (Draft.Forms.ofPieces (fragment_nav (sections g options))).append
    (forms_content g options (sections g options))
  have h := Draft.Forms.between (fun _ => Frame.fragment_page options.title) hpanes
  rwa [← Draft.append_assoc] at h

end Document

end SchemaPage
