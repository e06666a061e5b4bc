import SchemaPage.Proofs.Graph.Resolve
import SchemaPage.Proofs.Page.Anchor
import SchemaPage.Proofs.Page.Blocks

/-!
# The outline of a page

Both panes are written from the same sections, so the navigation pane links to exactly what the
content pane has a heading for.  The other links of a page are those in the blocks: the rows of
groups of fields, whose blocks follow, and the type names, which may mean a declaration that the
page does not show.

* `Document.outline`: sections, groups and declarations, in the order of a pane.
* `Document.shows_draft`: the links and the anchors of a page.
* `Document.ofType_mem_anchors`: an enum or a message of a selected file has a block to link to.
* `Document.links_subset_anchors_iff`: when every link of a written page leads to an anchor.
-/

namespace SchemaPage

open Markup

/-- The groups of some declarations hold these declarations. -/
theorem PackageGroup.flatMap_ofDeclarations (ds : List Declaration) :
    (ofDeclarations ds).flatMap PackageGroup.declarations = ds := by
  induction ds with
  | nil => rfl
  | cons d ds ih =>
    unfold ofDeclarations
    split
    · rename_i h
      rw [h] at ih
      rw [← ih]
      rfl
    · rename_i g gs h
      rw [h] at ih
      rw [← ih]
      split <;> rfl

namespace Document

/-- The outline of some sections, with some entries for each declaration. -/
def outline (entries : Kind → Declaration → List String) (sections : List Section) : List String :=
  sections.flatMap fun s => Anchor.ofKind s.kind :: s.groups.flatMap fun group =>
    Anchor.group s.kind group.package :: group.declarations.flatMap (entries s.kind)

/-- The entry for a declaration in the navigation pane. -/
def navEntry (kind : Kind) (d : Declaration) : List String :=
  [Anchor.declaration kind d.package d.name]

/-! ## The panes -/

theorem links_navGroup (kind : Kind) (group : PackageGroup) :
    links (navGroup kind group) =
      Anchor.group kind group.package :: group.declarations.flatMap (navEntry kind) := by
  rw [navGroup, links_append, links_append, links_flatMap, Frame.links_beginNavGroup,
    Frame.inert_endGroup.1, List.append_nil, List.singleton_append]
  simp only [Frame.links_navDeclaration]
  rfl

theorem anchors_navGroup (kind : Kind) (group : PackageGroup) :
    anchors (navGroup kind group) = [] := by
  rw [navGroup, anchors_append, anchors_append, anchors_flatMap, Frame.anchors_beginNavGroup,
    Frame.inert_endGroup.2, List.append_nil, List.nil_append]
  exact List.flatMap_eq_nil_iff.2 fun d _ => Frame.anchors_navDeclaration d.name _

/-- The navigation pane links to its outline. -/
theorem links_nav (sections : List Section) : links (nav sections) = outline navEntry sections := by
  rw [nav, links_append, links_append, links_flatMap, Frame.inert_beginNav.1, Frame.inert_endNav.1,
    List.nil_append, List.append_nil]
  refine List.flatMap_congr fun s _ => ?_
  rw [navSection, links_append, links_flatMap, Frame.links_navSection]
  simp only [links_navGroup]
  rfl

/-- The navigation pane has no anchor. -/
theorem anchors_nav (sections : List Section) : anchors (nav sections) = [] := by
  rw [nav, anchors_append, anchors_append, anchors_flatMap, Frame.inert_beginNav.2,
    Frame.inert_endNav.2, List.nil_append, List.append_nil]
  refine List.flatMap_eq_nil_iff.2 fun s _ => ?_
  rw [navSection, anchors_append, anchors_flatMap, Frame.anchors_navSection, List.nil_append]
  exact List.flatMap_eq_nil_iff.2 fun group _ => anchors_navGroup s.kind group

variable (g : Graph) (options : PageOptions)

theorem shows_contentGroup (kind : Kind) (group : PackageGroup) :
    (contentGroup g options kind group).Shows
      (group.declarations.flatMap (Declaration.links g options))
      (Anchor.group kind group.package ::
        group.declarations.flatMap (Declaration.anchors kind)) := by
  have hheading : (Draft.ofPieces (Frame.beginContentGroup group.package
      (Anchor.group kind group.package))).Shows [] [Anchor.group kind group.package] :=
    Draft.Shows.ofPieces (Frame.links_beginContentGroup _ _) (Frame.anchors_beginContentGroup _ _)
  have h := (hheading.append (Draft.Shows.concat fun d (_ : d ∈ group.declarations) =>
    Declaration.shows_draft g options kind d)).append (Draft.Shows.ofInert Frame.inert_endGroup)
  rwa [List.nil_append, List.append_nil, List.append_nil] at h

theorem shows_contentSection (s : Section) :
    (contentSection g options s).Shows (s.declarations.flatMap (Declaration.links g options))
      (Anchor.ofKind s.kind :: s.groups.flatMap fun group =>
        Anchor.group s.kind group.package ::
          group.declarations.flatMap (Declaration.anchors s.kind)) := by
  have hheading : (Draft.ofPieces (Frame.contentSection s.kind.title (Anchor.ofKind s.kind))).Shows
      [] [Anchor.ofKind s.kind] :=
    Draft.Shows.ofPieces (Frame.links_contentSection _ _) (Frame.anchors_contentSection _ _)
  have h := hheading.append (Draft.Shows.concat fun group (_ : group ∈ s.groups) =>
    shows_contentGroup g options s.kind group)
  rwa [List.nil_append, ← List.flatMap_assoc, Section.groups,
    PackageGroup.flatMap_ofDeclarations] at h

/-- The content pane has the links of its declarations and the anchors of its outline. -/
theorem shows_content (sections : List Section) :
    (content g options sections).Shows
      (sections.flatMap fun s => s.declarations.flatMap (Declaration.links g options))
      (outline Declaration.anchors sections) :=
  Draft.Shows.between (Frame.inert_beginContent options.title)
    (Draft.Shows.concat fun s _ => shows_contentSection g options s) Frame.inert_endContent

/-- The links and the anchors of a page. -/
theorem shows_draft :
    (draft g options).Shows
      (outline navEntry (sections g options) ++
        (sections g options).flatMap fun s => s.declarations.flatMap (Declaration.links g options))
      (outline Declaration.anchors (sections g options)) := by
  have hnav : (Draft.ofPieces (nav (sections g options))).Shows
      (outline navEntry (sections g options)) [] :=
    Draft.Shows.ofPieces (links_nav _) (anchors_nav _)
  have h := (((Draft.Shows.ofInert (Frame.inert_header options.title)).append hnav).append
    (shows_content g options (sections g options))).append (Draft.Shows.ofInert Frame.inert_footer)
  rwa [List.nil_append, List.nil_append, List.nil_append, List.append_nil, List.append_nil] at h

/-! ## What is in the outline -/

/-- The declarations that a page shows, in its order. -/
def shown : List Declaration := (sections g options).flatMap Section.declarations

variable {g options}

theorem mem_shown_iff {d : Declaration} :
    d ∈ shown g options ↔ ∃ kind, d ∈ g.list kind (selection options) := by
  unfold shown sections
  rw [List.flatMap_map, List.mem_flatMap]
  exact ⟨fun ⟨kind, _, h⟩ => ⟨kind, h⟩, fun ⟨kind, h⟩ => ⟨kind, Kind.mem_all kind, h⟩⟩

theorem mem_allDeclarations_of_mem_shown {d : Declaration} (h : d ∈ shown g options) :
    d ∈ g.allDeclarations := by
  obtain ⟨kind, hd⟩ := mem_shown_iff.1 h
  exact (Graph.mem_candidates_iff.1 (Graph.mem_candidates_of_mem_list hd)).1

theorem isOwned_of_mem_shown {d : Declaration} (h : d ∈ shown g options) : d.isOwned = true := by
  obtain ⟨kind, hd⟩ := mem_shown_iff.1 h
  have hincludes := (Graph.mem_candidates_iff.1 (Graph.mem_candidates_of_mem_list hd)).2.2
  unfold Selection.includes selection at hincludes
  exact (Bool.and_eq_true_iff.1 hincludes).1

/-- A declaration is shown under its kind. -/
theorem mem_section_of_mem_shown {d : Declaration} (h : d ∈ shown g options) :
    ⟨d.kind, g.list d.kind (selection options)⟩ ∈ sections g options ∧
      d ∈ g.list d.kind (selection options) := by
  obtain ⟨kind, hd⟩ := mem_shown_iff.1 h
  have hkind := (Graph.mem_candidates_iff.1 (Graph.mem_candidates_of_mem_list hd)).2.1
  rw [hkind]
  exact ⟨List.mem_map_of_mem (Kind.mem_all kind), hd⟩

/-- The entries for the declarations are in the outline. -/
theorem mem_outline {entries : Kind → Declaration → List String} {d : Declaration} {x : String}
    (hd : d ∈ shown g options) (hx : x ∈ entries d.kind d) :
    x ∈ outline entries (sections g options) := by
  obtain ⟨hs, hlist⟩ := mem_section_of_mem_shown hd
  refine List.mem_flatMap_of_mem hs (List.mem_cons_of_mem _ ?_)
  rw [← PackageGroup.flatMap_ofDeclarations (g.list d.kind (selection options))] at hlist
  obtain ⟨group, hgroup, hmem⟩ := List.mem_flatMap.1 hlist
  exact List.mem_flatMap_of_mem hgroup
    (List.mem_cons_of_mem _ (List.mem_flatMap_of_mem hmem hx))

/-- More entries make a larger outline. -/
theorem outline_subset {entries entries' : Kind → Declaration → List String}
    (h : ∀ kind d, entries kind d ⊆ entries' kind d) (sections : List Section) :
    outline entries sections ⊆ outline entries' sections := by
  intro x hx
  obtain ⟨s, hs, hx⟩ := List.mem_flatMap.1 hx
  refine List.mem_flatMap_of_mem hs ?_
  rcases List.mem_cons.1 hx with rfl | hx
  · exact List.mem_cons_self
  · obtain ⟨group, hgroup, hx⟩ := List.mem_flatMap.1 hx
    refine List.mem_cons_of_mem _ (List.mem_flatMap_of_mem hgroup ?_)
    rcases List.mem_cons.1 hx with rfl | hx
    · exact List.mem_cons_self
    · obtain ⟨d, hd, hx⟩ := List.mem_flatMap.1 hx
      exact List.mem_cons_of_mem _ (List.mem_flatMap_of_mem hd (h s.kind d hx))

/-- The content pane has every heading that the navigation pane links to. -/
theorem navEntry_subset_anchors (kind : Kind) (d : Declaration) :
    navEntry kind d ⊆ Declaration.anchors kind d := by
  intro x hx
  obtain rfl := List.mem_singleton.1 hx
  exact List.mem_cons_self

/-! ## Links that lead to an anchor -/

/-- A group of fields inside a shown message has an anchor. -/
theorem oneof_mem_anchors {d : Declaration} {o : Oneof} (hd : d ∈ shown g options)
    (ho : o ∈ d.oneofs) :
    Anchor.oneof d.fullName o.name ∈ outline Declaration.anchors (sections g options) :=
  mem_outline hd (List.mem_cons_of_mem _ (List.mem_map_of_mem ho))

/-- An enum or a message of a selected file has a block, or another declaration of its package and
name has one in its place, and a link to it leads there. -/
theorem ofType_mem_anchors {d : Declaration} (hd : d ∈ g.allDeclarations)
    (hkind : d.kind ≠ .service) (hfile : (selection options).includes d.file) :
    Anchor.ofType d ∈ outline Declaration.anchors (sections g options) := by
  have hcand : d ∈ g.candidates d.kind (selection options) :=
    Graph.mem_candidates_iff.2 ⟨hd, rfl, hfile⟩
  obtain ⟨e, he, hkey⟩ := Order.exists_mem_latest SortKey.packageThenName.of hcand
  have he : e ∈ g.list d.kind (selection options) := he
  have hpackage : e.package = d.package := (List.cons.inj hkey).1
  have hname : e.name = d.name := (List.cons.inj (List.cons.inj hkey).2).1
  have hshown : e ∈ shown g options := mem_shown_iff.2 ⟨d.kind, he⟩
  have hekind : e.kind = d.kind :=
    (Graph.mem_candidates_iff.1 (Graph.mem_candidates_of_mem_list he)).2.1
  have hbucket : Anchor.bucket d.kind = e.kind := by
    rw [hekind]
    cases hk : d.kind with
    | service => exact absurd hk hkind
    | enumeration => rfl
    | message => rfl
  rw [Anchor.ofType_eq_declaration, hbucket, ← hpackage, ← hname]
  exact mem_outline hshown List.mem_cons_self

/-- A page that is written to its end is there in full, and all of its links lead to an anchor
exactly when those of its references do.  A reference to an owned enum or message of a selected file
always does; one to a service or into a file that the page is not about only when some other part
of the page happens to have the same anchor. -/
theorem links_subset_anchors_iff {files : List SchemaFile} {tolerant : Bool}
    {options : PageOptions} {s s' : Sink}
    (h : generate ((Graph.ofFiles files).withTolerance tolerant) options s = (s', .ok ())) :
    let g := (Graph.ofFiles files).withTolerance tolerant
    let page := (draft g options).pieces
    s'.taken = s.taken ++ (Markup.render page).toUTF8 ∧
    ((∀ x ∈ Markup.links page, x ∈ Markup.anchors page) ↔
      ∀ d ∈ shown g options, ∀ w ∈ d.references options, ∀ target,
        g.resolve d w = .ok (some (.declared target)) → target.isOwned →
          target.kind ≠ .service ∧ (selection options).includes target.file ∨
            Anchor.ofType target ∈ Markup.anchors page) := by
  intro g page
  obtain ⟨hnone, htaken⟩ := generate_eq_ok h
  obtain ⟨hlinks, hanchors⟩ := shows_draft g options hnone
  refine ⟨htaken, ?_⟩
  have hpage : Markup.anchors page = outline Declaration.anchors (sections g options) := hanchors
  have hmem : ∀ x, x ∈ Markup.links page ↔
      x ∈ outline navEntry (sections g options) ∨ ∃ d ∈ shown g options, x ∈ d.links g options := by
    intro x
    rw [show Markup.links page = _ from hlinks, List.mem_append, ← List.flatMap_assoc,
      List.mem_flatMap]
    rfl
  constructor
  · intro hclosed d hd w hw target hresolve hown
    refine Or.inr (hclosed _ ((hmem _).2 (Or.inr ⟨d, hd, ?_⟩)))
    exact Declaration.mem_links_of_mem_references hw
      (Graph.linkOf?_eq_some_iff.2 ⟨target, hresolve, hown, rfl⟩)
  · intro hrefs x hx
    rw [hpage]
    rcases (hmem x).1 hx with hnav | ⟨d, hd, hx⟩
    · exact outline_subset navEntry_subset_anchors _ hnav
    · rcases Declaration.reference_or_oneof_of_mem_links hx with ⟨w, hw, hx⟩ | ⟨o, ho, rfl⟩
      · obtain ⟨target, hresolve, hown, rfl⟩ := Graph.linkOf?_eq_some_iff.1 hx
        rcases hrefs d hd w hw target hresolve hown with ⟨hkind, hfile⟩ | hanchor
        · exact ofType_mem_anchors (Graph.mem_of_resolve hresolve) hkind hfile
        · exact hpage ▸ hanchor
      · exact oneof_mem_anchors hd ho

/-- Two owned files, of which the first refers to a message of the second. -/
def acrossFiles : List SchemaFile :=
  let field : PlainField := ⟨"b", "B", 1, false, false, true, none⟩
  [⟨"a.proto", "p", .owned, [], [], [⟨"A", [.plain field], none⟩]⟩,
    ⟨"b.proto", "p", .owned, [], [], [⟨"B", [], none⟩]⟩]

/-- The page of one of the two files is written to its end. -/
theorem generate_acrossFiles :
    (generate ((Graph.ofFiles acrossFiles).withTolerance false) { paths := ["a.proto"] }
      Sink.unlimited).2 = .ok () :=
  (generate_eq_ok_iff rfl rfl).2 (by decide +kernel)

/-- The reference to the other file is what its links fail by. -/
theorem references_acrossFiles :
    let g := (Graph.ofFiles acrossFiles).withTolerance false
    let options : PageOptions := { paths := ["a.proto"] }
    (generate g options Sink.unlimited).2 = .ok () ∧
      ¬ ∀ d ∈ shown g options, ∀ w ∈ d.references options, ∀ target,
        g.resolve d w = .ok (some (.declared target)) → target.isOwned →
          target.kind ≠ .service ∧ (selection options).includes target.file ∨
            Anchor.ofType target ∈ Markup.anchors (draft g options).pieces := by
  intro g options
  refine ⟨generate_acrossFiles, fun hrefs => ?_⟩
  have hlinks := (links_subset_anchors_iff (Prod.ext rfl generate_acrossFiles)).2.2 hrefs
  revert hlinks
  decide +kernel

/-- A written page may have a link that leads nowhere. -/
theorem exists_link_without_anchor :
    ¬ ∀ (files : List SchemaFile) (tolerant : Bool) (options : PageOptions) (s s' : Sink),
      generate ((Graph.ofFiles files).withTolerance tolerant) options s = (s', .ok ()) →
        ∀ x ∈ Markup.links (draft ((Graph.ofFiles files).withTolerance tolerant) options).pieces,
          x ∈ Markup.anchors
            (draft ((Graph.ofFiles files).withTolerance tolerant) options).pieces := by
  intro h
  have hlink := h acrossFiles false { paths := ["a.proto"] } Sink.unlimited _
    (Prod.ext rfl generate_acrossFiles)
  revert hlink
  decide +kernel

end Document

end SchemaPage
