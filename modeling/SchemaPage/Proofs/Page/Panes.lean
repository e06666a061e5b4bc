import SchemaPage.Proofs.Page.Grammar
import SchemaPage.Proofs.Page.Groups

/-!
# The panes of a page

Both panes are read here as a reader sees them: where the part of a package begins and ends, and
which entries there are, with the text that each one shows.  In the navigation pane an entry is a
link, in the content pane an anchor that is not the anchor of a group of fields.  Read so, both
panes show the same outline, and it lists exactly what the page is about.

* `Markup.outlineMarks`: the parts and the entries in a list of pieces.
* `Markup.Reads`: pieces with given marks, whatever follows them.
* `Document.outlineOf`: the marks of some packages and names.
* `Document.panes_generate`: the panes of a written page.
-/

namespace SchemaPage

open Markup

/-! ## Reading an outline -/

/-- What a reader of a pane looks for. -/
inductive OutlineMark where
  /-- A part begins. -/
  | opens
  /-- A part ends. -/
  | closes
  /-- An entry for an anchor, with the text that is shown. -/
  | entry (anchor label : String)
  deriving DecidableEq, Repr

/-- Whether an anchor belongs to a group of fields. -/
def Anchor.isOneof (anchor : String) : Bool := "content-Oneof".toList.isPrefixOf anchor.toList

/-- The anchor that an attribute of an element `a` gives a name to, unless it belongs to a group of
fields. -/
def Attribute.heading? (a : Attribute) : Option String := a.anchor?.filter (!Anchor.isOneof ·)

namespace Piece

/-- The text that a reader sees next. -/
def label : List Piece → String
  | .text t :: _ => t
  | _ => ""

/-- What a piece is in an outline, when `ref` gives the anchors of its entries and `next`
follows. -/
def outlineMark (ref : Attribute → Option String) (next : List Piece) : Piece → List OutlineMark
  | opening .part _ => [.opens]
  | closing .part => [.closes]
  | opening .a attributes => (attributes.filterMap ref).map fun anchor => .entry anchor (label next)
  | _ => []

end Piece

namespace Markup

/-- The marks of some pieces. -/
def outlineMarks (ref : Attribute → Option String) : List Piece → List OutlineMark
  | [] => []
  | p :: ps => p.outlineMark ref ps ++ outlineMarks ref ps

/-- The pieces have the given marks, whatever follows them. -/
def Reads (ref : Attribute → Option String) (pieces : List Piece) (marks : List OutlineMark) :
    Prop :=
  ∀ rest, outlineMarks ref (pieces ++ rest) = marks ++ outlineMarks ref rest

namespace Reads

variable {ref : Attribute → Option String}

theorem outlineMarks_eq {pieces : List Piece} {marks : List OutlineMark}
    (h : Reads ref pieces marks) :
    outlineMarks ref pieces = marks := by
  have hnil := h []
  rwa [List.append_nil, outlineMarks, List.append_nil] at hnil

theorem append {l r : List Piece} {marks marks' : List OutlineMark} (hl : Reads ref l marks)
    (hr : Reads ref r marks') : Reads ref (l ++ r) (marks ++ marks') := by
  intro rest
  rw [List.append_assoc, hl, hr, List.append_assoc]

theorem flatMap {α : Type} {l : List α} {f : α → List Piece} {marks : α → List OutlineMark}
    (h : ∀ a ∈ l, Reads ref (f a) (marks a)) : Reads ref (l.flatMap f) (l.flatMap marks) := by
  induction l with
  | nil => exact fun rest => rfl
  | cons a l ih =>
    exact append (h a List.mem_cons_self) (ih fun b hb => h b (List.mem_cons_of_mem a hb))

/-- Pieces that are nothing in an outline. -/
theorem of_forall {pieces : List Piece} (h : ∀ p ∈ pieces, ∀ next, p.outlineMark ref next = []) :
    Reads ref pieces [] := by
  intro rest
  induction pieces with
  | nil => rfl
  | cons p pieces ih =>
    rw [List.cons_append, outlineMarks, h p List.mem_cons_self,
      ih fun q hq => h q (List.mem_cons_of_mem p hq)]
    rfl

/-- Pieces that are nothing in an outline change nothing around others. -/
theorem between {before after content : List Piece} {marks : List OutlineMark}
    (hb : Reads ref before []) (hc : Reads ref content marks) (ha : Reads ref after []) :
    Reads ref (before ++ content ++ after) marks := by
  have h := (hb.append hc).append ha
  rwa [List.nil_append, List.append_nil] at h

end Reads

/-! ## Blocks -/

/-- The elements of a block are neither parts nor, unless they link or are linked to, elements
`a`. -/
theorem Fragment.forall_ne_part {pieces : List Piece} (h : Fragment Grammar.blockHeads pieces) :
    ∀ p ∈ pieces, p ≠ .closing .part ∧ ∀ attributes, p ≠ .opening .part attributes := by
  have hheads : ∀ head ∈ Grammar.blockHeads, head.1 ≠ .part := by decide
  have hsingles : ∀ p ∈ Grammar.marks, p ≠ .closing .part ∧
      ∀ attributes, p ≠ .opening .part attributes := by
    intro p hp
    refine ⟨?_, fun attributes => ?_⟩ <;> rintro rfl <;> simp [Grammar.marks, line] at hp
  induction h with
  | nil => simp
  | text t => simp
  | single h =>
    rw [List.forall_mem_singleton]
    rcases List.mem_cons.1 h with rfl | h
    · simp [Grammar.sheet]
    · exact hsingles _ h
  | @element tag attributes content h _ ih =>
    have htag : tag ≠ .part := by
      rcases h with h | h
      · exact hheads (tag, attributes) h
      · cases h <;> decide
    rw [List.forall_mem_append, List.forall_mem_cons, List.forall_mem_singleton]
    refine ⟨⟨⟨by simp, fun attributes' heq => htag (Piece.opening.inj heq).1⟩, ih⟩,
      fun heq => htag (Piece.closing.inj heq), by simp⟩
  | append _ _ ihl ihr => exact List.forall_mem_append.2 ⟨ihl, ihr⟩

/-- A block in which no element `a` refers to anything is nothing in an outline. -/
theorem Fragment.reads_nil {ref : Attribute → Option String} {pieces : List Piece}
    (h : Fragment Grammar.blockHeads pieces)
    (hnone : ∀ attributes, .opening .a attributes ∈ pieces → attributes.filterMap ref = []) :
    Reads ref pieces [] := by
  refine .of_forall fun p hp next => ?_
  obtain ⟨hclosing, hopening⟩ := h.forall_ne_part p hp
  cases p with
  | opening tag attributes =>
    cases tag with
    | part => exact absurd rfl (hopening attributes)
    | a =>
      rw [Piece.outlineMark, hnone attributes hp]
      rfl
    | _ => rfl
  | closing tag =>
    cases tag with
    | part => exact absurd rfl hclosing
    | _ => rfl
  | _ => rfl

/-- A block with no anchors but those of groups of fields is nothing in the outline of the
content. -/
theorem Fragment.reads_heading {pieces : List Piece} (h : Fragment Grammar.blockHeads pieces)
    (hanchors : ∀ x ∈ anchors pieces, Anchor.isOneof x = true) :
    Reads Attribute.heading? pieces [] := by
  refine h.reads_nil fun attributes hmem => List.filterMap_eq_nil_iff.2 fun a ha => ?_
  cases hname : a.anchor? with
  | none => rw [Attribute.heading?, hname, Option.filter_none]
  | some x =>
    have hx : x ∈ anchors pieces :=
      List.mem_flatMap.2 ⟨_, hmem, List.mem_filterMap.2 ⟨a, ha, hname⟩⟩
    rw [Attribute.heading?, hname, Option.filter_some, hanchors x hx]
    rfl

/-! ## Headings -/

variable {ref : Attribute → Option String}

/-- An element `a` is an entry when its attribute refers to something. -/
theorem reads_element (label : String) {anchor : String} {a : Attribute}
    (ha : ref a = some anchor) :
    Reads ref (.opening .a [a] :: [.text label] ++ [.closing .a]) [.entry anchor label] := by
  intro rest
  simp [outlineMarks, Piece.outlineMark, Piece.label, ha]

/-- A heading with such an element is an entry. -/
theorem reads_entry (cls label : String) {anchor : String} {a : Attribute}
    (ha : ref a = some anchor) {content : List Piece} (hc : Reads ref content []) :
    Reads ref (Frame.entry cls (.opening .a [a] :: [.text label] ++ [.closing .a] ++ content))
      [.entry anchor label] :=
  .between (fun _ => rfl) ((reads_element label ha).append hc) fun _ => rfl

/-- An entry of the navigation pane. -/
theorem reads_navEntry (cls target label : String) :
    Reads Attribute.target? (Frame.entry cls (link target [.text label]))
      [.entry target label] := by
  have h := reads_entry cls label (target?_href target) (fun _ => rfl : Reads _ [] [])
  rwa [List.append_nil] at h

/-- An entry of the content pane. -/
theorem reads_contentEntry (cls : String) {name : String} (h : Anchor.isOneof name = false)
    (label : String) {content : List Piece} (hc : Reads Attribute.heading? content []) :
    Reads Attribute.heading? (Frame.entry cls (anchor name [.text label] ++ content))
      [.entry name label] := by
  have hname : (⟨"name", name⟩ : Attribute).heading? = some name := by
    simp [Attribute.heading?, h]
  exact reads_entry cls label hname hc

theorem reads_note (cls text : String) : Reads ref (Frame.note cls text) [] := by
  unfold Frame.note
  split
  · exact fun _ => rfl
  · exact fun _ => rfl

end Markup

/-! ## Anchors of groups of fields -/

namespace Anchor

/-- An anchor with a label begins with it. -/
theorem exists_join_slugify {label : String} (hlabel : label ≠ "") (parts : List String) :
    ∃ rest, (join ("content" :: label :: parts.map Text.slugify)).toList =
      "content-".toList ++ (label.toList ++ rest) := by
  rw [join_slugify hlabel]
  cases hws : parts.flatMap Text.slugWords with
  | nil =>
    refine ⟨[], ?_⟩
    rw [String.intercalate_cons_cons, String.intercalate_singleton]
    simp
  | cons w ws =>
    refine ⟨'-' :: ("-".intercalate (w :: ws)).toList, ?_⟩
    rw [String.intercalate_cons_cons, String.intercalate_cons_cons]
    simp

theorem isOneof_oneof (messageName oneofName : String) :
    isOneof (oneof messageName oneofName) = true := by
  obtain ⟨rest, hrest⟩ := exists_join_slugify (by decide : "Oneof" ≠ "") [messageName, oneofName]
  have hjoin : (oneof messageName oneofName).toList =
      "content-".toList ++ ("Oneof".toList ++ rest) := hrest
  rw [isOneof, hjoin]
  rfl

/-- No label of a kind begins like that of the groups of fields. -/
theorem isPrefixOf_label (kind : Kind) (rest : List Char) :
    "content-Oneof".toList.isPrefixOf ("content-".toList ++ (kind.label.toList ++ rest)) =
      false := by
  cases kind <;> rfl

theorem isOneof_declaration (kind : Kind) (package name : String) :
    isOneof (declaration kind package name) = false := by
  obtain ⟨rest, hrest⟩ := exists_join_slugify (label_ne_empty kind) [package, name]
  have hjoin : (declaration kind package name).toList =
      "content-".toList ++ (kind.label.toList ++ rest) := hrest
  rw [isOneof, hjoin]
  exact isPrefixOf_label kind rest

theorem exists_ofKind (kind : Kind) :
    (ofKind kind).toList = "content-".toList ++ (kind.label.toList ++ []) := by
  cases kind <;> rfl

theorem isOneof_ofKind (kind : Kind) : isOneof (ofKind kind) = false := by
  rw [isOneof, exists_ofKind]
  exact isPrefixOf_label kind []

theorem isOneof_group (kind : Kind) (package : String) : isOneof (group kind package) = false := by
  rw [isOneof, group, String.toList_append, String.toList_append, exists_ofKind, List.append_nil,
    List.append_assoc, List.append_assoc]
  exact isPrefixOf_label kind _

end Anchor

/-! ## The panes -/

namespace Document

/-- The outline with some packages and names under each kind: an entry for each section, and in it,
for each package, a part with an entry for the package and one for each name. -/
def outlineOf (groups : Kind → List (String × List String)) : List OutlineMark :=
  Kind.all.flatMap fun kind => .entry (Anchor.ofKind kind) kind.title ::
    (groups kind).flatMap fun group =>
      [.opens, .entry (Anchor.group kind group.1) (Frame.packageLabel group.1)] ++
      group.2.map (fun name => .entry (Anchor.declaration kind group.1 name) name) ++ [.closes]

/-- The marks of a group. -/
def groupMarks (kind : Kind) (group : PackageGroup) : List OutlineMark :=
  [.opens, .entry (Anchor.group kind group.package) (Frame.packageLabel group.package)] ++
    group.declarations.flatMap
      (fun d => [.entry (Anchor.declaration kind d.package d.name) d.name]) ++
    [.closes]

variable {g : Graph} {options : PageOptions}

/-- The marks of the sections of a page are the outline of its packages and names. -/
theorem flatMap_sections :
    (sections g options).flatMap (fun s => .entry (Anchor.ofKind s.kind) s.kind.title ::
      s.groups.flatMap (groupMarks s.kind)) = outlineOf (groups g options) := by
  unfold sections outlineOf groups
  rw [List.flatMap_map]
  refine List.flatMap_congr fun kind _ => ?_
  rw [List.flatMap_map]
  congr 1
  refine List.flatMap_congr fun group hgroup => ?_
  have hrun := PackageGroup.isRun_of_mem hgroup
  have hentries :
      group.declarations.flatMap (fun d =>
          [OutlineMark.entry (Anchor.declaration kind d.package d.name) d.name]) =
        group.declarations.map fun d =>
          .entry (Anchor.declaration kind group.package d.name) d.name := by
    rw [List.map_eq_flatMap]
    exact List.flatMap_congr fun d hd => by rw [hrun.package_eq d hd]
  rw [groupMarks, hentries, List.map_map]
  rfl

/-- The navigation pane shows the outline. -/
theorem reads_nav :
    Reads Attribute.target? (nav (sections g options)) (outlineOf (groups g options)) := by
  rw [← flatMap_sections]
  refine .between (fun _ => rfl) (.flatMap fun s _ => ?_) fun _ => rfl
  refine (reads_navEntry "item" _ _).append (.flatMap fun group _ => ?_)
  have hbegin : Reads Attribute.target? Frame.beginGroup [.opens] := fun _ => rfl
  have hentries := Reads.flatMap fun d (_ : d ∈ group.declarations) =>
    reads_navEntry "ns-item" (Anchor.declaration s.kind d.package d.name) d.name
  have hend : Reads Attribute.target? Frame.endGroup [.closes] := fun _ => rfl
  exact ((hbegin.append (reads_navEntry "ns" _ _)).append hentries).append hend

variable (g options)

/-- A declaration is one entry: the groups of fields in it are left out. -/
theorem reads_declaration (kind : Kind) (d : Declaration)
    (h : (d.draft g options kind).failure = none) :
    Reads Attribute.heading? (d.draft g options kind).pieces
      [.entry (Anchor.declaration kind d.package d.name) d.name] := by
  have hnotes : Reads Attribute.heading?
      (Frame.note "pkg" d.package ++ Frame.note "filename" d.path) [] :=
    (reads_note _ _).append (reads_note _ _)
  have hheading := reads_contentEntry "ns-item" (Anchor.isOneof_declaration kind d.package d.name)
    d.name hnotes
  rw [← List.append_assoc] at hheading
  obtain ⟨hfirst, hgroups⟩ := Draft.failure_append_eq_none_iff.1 h
  have hbody := (Draft.failure_append_eq_none_iff.1 hfirst).2
  have hbodyReads : Reads Attribute.heading? (d.body g options).pieces [] := by
    refine (d.forms_body g options hbody).reads_heading fun x hx => ?_
    rw [(d.shows_body g options hbody).2] at hx
    exact absurd hx List.not_mem_nil
  have hgroupsReads : Reads Attribute.heading? (d.oneofBlocks g options d.oneofs).pieces [] := by
    refine (d.forms_oneofBlocks g options d.oneofs hgroups).reads_heading fun x hx => ?_
    rw [(d.shows_oneofBlocks g options hgroups).2] at hx
    obtain ⟨o, -, rfl⟩ := List.mem_map.1 hx
    exact Anchor.isOneof_oneof d.fullName o.name
  rw [Declaration.draft, Draft.pieces_append hfirst, Draft.pieces_append rfl]
  exact (hheading.append hbodyReads).append hgroupsReads

theorem reads_contentGroup (kind : Kind) (group : PackageGroup)
    (h : (contentGroup g options kind group).failure = none) :
    Reads Attribute.heading? (contentGroup g options kind group).pieces
      (groupMarks kind group) := by
  obtain ⟨hfirst, -⟩ := Draft.failure_append_eq_none_iff.1 h
  have hds := Draft.failure_concat_eq_none_iff.1 (Draft.failure_append_eq_none_iff.1 hfirst).2
  have hbegin : Reads Attribute.heading? Frame.beginGroup [.opens] := fun _ => rfl
  have hname := reads_contentEntry "ns" (Anchor.isOneof_group kind group.package)
    (Frame.packageLabel group.package) (fun _ => rfl : Reads _ [] [])
  have hentries := Reads.flatMap fun d (hd : d ∈ group.declarations) =>
    reads_declaration g options kind d (hds _ (List.mem_map_of_mem hd))
  have hend : Reads Attribute.heading? Frame.endGroup [.closes] := fun _ => rfl
  rw [contentGroup, Draft.pieces_append hfirst, Draft.pieces_append rfl, Draft.pieces_concat hds,
    List.flatMap_map]
  rw [List.append_nil] at hname
  exact ((hbegin.append hname).append hentries).append hend

/-- The content pane shows the same outline. -/
theorem reads_content (h : (content g options (sections g options)).failure = none) :
    Reads Attribute.heading? (content g options (sections g options)).pieces
      (outlineOf (groups g options)) := by
  rw [← flatMap_sections]
  obtain ⟨hfirst, -⟩ := Draft.failure_append_eq_none_iff.1 h
  have hsections := Draft.failure_concat_eq_none_iff.1 (Draft.failure_append_eq_none_iff.1 hfirst).2
  rw [content, Draft.pieces_append hfirst, Draft.pieces_append rfl, Draft.pieces_concat hsections,
    List.flatMap_map]
  refine .between (fun _ => rfl) (.flatMap fun s hs => ?_) fun _ => rfl
  have hsection := hsections _ (List.mem_map_of_mem hs)
  have hgroups := Draft.failure_concat_eq_none_iff.1 (Draft.failure_append_eq_none_iff.1 hsection).2
  have hname := reads_contentEntry "item" (Anchor.isOneof_ofKind s.kind) s.kind.title
    (fun _ => rfl : Reads _ [] [])
  rw [List.append_nil] at hname
  rw [contentSection, Draft.pieces_append rfl, Draft.pieces_concat hgroups, List.flatMap_map]
  exact hname.append (.flatMap fun group hgroup =>
    reads_contentGroup g options s.kind group (hgroups _ (List.mem_map_of_mem hgroup)))

/-! ## Links against anchors -/

/-- The outline without the anchors of groups of fields is the outline of the navigation pane. -/
theorem filter_outline (sections : List Section) :
    (outline Declaration.anchors sections).filter (!Anchor.isOneof ·) =
      outline navEntry sections := by
  have hentries : ∀ kind d, (Declaration.anchors kind d).filter (!Anchor.isOneof ·) =
      navEntry kind d := by
    intro kind d
    have hgroups : (d.oneofs.map fun o => Anchor.oneof d.fullName o.name).filter
        (!Anchor.isOneof ·) = [] := by
      rw [List.filter_eq_nil_iff, List.forall_mem_map]
      intro o _
      simp [Anchor.isOneof_oneof]
    rw [Declaration.anchors, List.filter_cons, hgroups, Anchor.isOneof_declaration]
    rfl
  unfold outline
  rw [List.filter_flatMap]
  refine List.flatMap_congr fun s _ => ?_
  rw [List.filter_cons, Anchor.isOneof_ofKind, List.filter_flatMap]
  refine congrArg (Anchor.ofKind s.kind :: ·) (List.flatMap_congr fun group _ => ?_)
  rw [List.filter_cons, Anchor.isOneof_group, List.filter_flatMap]
  exact congrArg (Anchor.group s.kind group.package :: ·)
    (List.flatMap_congr fun d _ => hentries s.kind d)

variable {g options}

/-- A page that is written to its end is there in full.  Its navigation pane links to the anchors of
its content pane in their order, those of groups of fields left out.  Both panes show the same
outline: the sections, in each of them one closed part for each package, and in it one entry for
each name, where the packages and names are those of the selected declarations, each once and in
ascending order. -/
theorem panes_generate {s s' : Sink} (h : generate g options s = (s', .ok ())) :
    let navPane := nav (sections g options)
    let contentPane := (content g options (sections g options)).pieces
    s'.taken = s.taken ++ (Markup.render
      (Frame.header options.title ++ navPane ++ contentPane ++ Frame.footer)).toUTF8 ∧
    links navPane = (anchors contentPane).filter (!Anchor.isOneof ·) ∧
    ∃ groups : Kind → List (String × List String), (∀ kind, Lists g options kind (groups kind)) ∧
      outlineMarks Attribute.target? navPane = outlineOf groups ∧
      outlineMarks Attribute.heading? contentPane = outlineOf groups := by
  intro navPane contentPane
  obtain ⟨hnone, htaken⟩ := generate_eq_ok h
  obtain ⟨hpanes, -⟩ := Draft.failure_append_eq_none_iff.1 hnone
  have hcontent := (Draft.failure_append_eq_none_iff.1 hpanes).2
  have hpage : (draft g options).pieces =
      Frame.header options.title ++ navPane ++ contentPane ++ Frame.footer := by
    rw [draft, Draft.pieces_append hpanes, Draft.pieces_append rfl, Draft.pieces_append rfl]
    rfl
  refine ⟨?_, ?_, groups g options, fun kind => lists_groups, reads_nav.outlineMarks_eq,
    (reads_content g options hcontent).outlineMarks_eq⟩
  · rw [htaken, Draft.text, hpage]
  · rw [links_nav, (shows_content g options _ hcontent).2, filter_outline]

/-- Two owned files, one of them without a package, and one that is only imported. -/
def mixedPackages : List SchemaFile :=
  let field : PlainField := ⟨"f", "int32", 1, false, false, true, none⟩
  [⟨"a.proto", "p", .owned, [⟨"S", [], none⟩], [],
      [⟨"B", [.oneof "o" [.plain field] none], none⟩, ⟨"A", [], none⟩]⟩,
    ⟨"b.proto", "", .owned, [], [], [⟨"C", [.plain field], none⟩]⟩,
    ⟨"c.proto", "p", .imported, [], [], [⟨"D", [], none⟩]⟩]

/-- The page of these files is written, and its links meet its anchors. -/
theorem links_mixedPackages :
    let g := Graph.ofFiles mixedPackages
    (generate g {} Sink.unlimited).2 = .ok () ∧
      links (nav (sections g {})) =
        (anchors (content g {} (sections g {})).pieces).filter (!Anchor.isOneof ·) := by
  intro g
  have hok : (generate g {} Sink.unlimited).2 = .ok () :=
    (generate_eq_ok_iff rfl rfl).2 (by decide +kernel)
  exact ⟨hok, (panes_generate (Prod.ext rfl hok)).2.1⟩

end Document

end SchemaPage
