import Mathlib.Data.List.Perm.Basic
import SchemaPage.Proofs.Page.Groups
import SchemaPage.Proofs.Page.Names

/-!
# When the anchors of a page are distinct

Slugs are in lower case, so names that differ in the case of letters only share an anchor; and the
anchor of the group of a package is that of a declaration which has the name of the package.  These
are the only ways in which two headings of a page can meet.  So the anchors of a page are distinct
exactly when its declarations, its packages and the groups of fields in its messages have distinct
names, case aside, and no declaration is named like a package of its section.

* `Document.HasDistinctNames`: these conditions.
* `Document.perm_outline`: the anchors of a page by what they stand for.
* `Document.nodup_anchors_iff`: when the anchors of a page are distinct.
* `Document.exists_repeated_anchor`: distinct names need not have distinct anchors.
-/

namespace SchemaPage

open Markup Text
open scoped List

namespace Document

variable {g : Graph} {options : PageOptions}

/-- The names on a page differ, case aside, wherever they could share an anchor. -/
structure HasDistinctNames (g : Graph) (options : PageOptions) : Prop where
  names : ∀ d ∈ shown g options, ∀ e ∈ shown g options, d.kind = e.kind →
    lowercase d.fullName = lowercase e.fullName → d = e
  packages : ∀ d ∈ shown g options, ∀ e ∈ shown g options, d.kind = e.kind →
    lowercase d.package = lowercase e.package → d.package = e.package
  apart : ∀ d ∈ shown g options, ∀ e ∈ shown g options, d.kind = e.kind →
    lowercase d.package ≠ lowercase e.fullName
  oneofs : ∀ d ∈ shown g options, (d.oneofs.map fun o => lowercase o.name).Nodup

/-! ## What a page shows -/

theorem kind_of_mem_list {kind : Kind} {selection : Selection} {d : Declaration}
    (h : d ∈ g.list kind selection) : d.kind = kind :=
  (Graph.mem_candidates_iff.1 (Graph.mem_candidates_of_mem_list h)).2.1

/-- The kinds and packages of the groups of a page. -/
def shownPackages (g : Graph) (options : PageOptions) : List (Kind × String) :=
  (sections g options).flatMap fun s => s.groups.map fun group => (s.kind, group.package)

theorem mem_shownPackages_iff {kind : Kind} {package : String} :
    (kind, package) ∈ shownPackages g options ↔
      ∃ d ∈ shown g options, d.kind = kind ∧ d.package = package := by
  simp only [shownPackages, sections, List.flatMap_map, List.mem_flatMap, List.mem_map,
    Prod.mk.injEq]
  constructor
  · rintro ⟨kind, -, group, hgroup, rfl, rfl⟩
    have hrun := PackageGroup.isRun_of_mem hgroup
    obtain ⟨d, ds, hds⟩ := List.exists_cons_of_ne_nil hrun.ne_nil
    have hd : d ∈ group.declarations := hds ▸ List.mem_cons_self
    have hlist : d ∈ g.list kind (selection options) := PackageGroup.mem_of_mem_group hgroup hd
    exact ⟨d, mem_shown_iff.2 ⟨kind, hlist⟩, kind_of_mem_list hlist, hrun.package_eq d hd⟩
  · rintro ⟨d, hd, rfl, rfl⟩
    have hlist := (mem_section_of_mem_shown hd).2
    rw [← PackageGroup.flatMap_ofDeclarations (g.list d.kind (selection options))] at hlist
    obtain ⟨group, hgroup, hmem⟩ := List.mem_flatMap.1 hlist
    exact ⟨d.kind, Kind.mem_all d.kind, group, hgroup, rfl,
      ((PackageGroup.isRun_of_mem hgroup).package_eq d hmem).symm⟩

/-- Lists for the kinds are disjoint when their members tell the kind. -/
theorem nodup_flatMap_kind {α : Type} {f : Kind → List α} (kindOf : α → Kind)
    (h : ∀ kind, (f kind).Nodup) (hkind : ∀ kind, ∀ a ∈ f kind, kindOf a = kind) :
    (Kind.all.flatMap f).Nodup := by
  have hall : Kind.all.Nodup := by decide
  refine List.nodup_flatMap.2 ⟨fun kind _ => h kind, hall.imp fun {k k'} hne a ha ha' => hne ?_⟩
  rw [← hkind k a ha, hkind k' a ha']

theorem nodup_shown : (shown g options).Nodup := by
  have hlist :=
    nodup_flatMap_kind (f := fun kind => g.list kind (selection options)) Declaration.kind
    (fun kind => ascending_list.nodup) fun kind d hd => kind_of_mem_list hd
  rwa [shown, sections, List.flatMap_map]

theorem nodup_shownPackages : (shownPackages g options).Nodup := by
  rw [shownPackages, sections, List.flatMap_map]
  refine nodup_flatMap_kind Prod.fst (fun kind => ?_) fun kind key hkey => ?_
  · have hlist : Order.Ascending SortKey.packageThenName.of (g.list kind (selection options)) :=
      ascending_list
    have hascending := PackageGroup.ascending_ofDeclarations (PackageGroup.pairwise_package hlist)
    refine List.pairwise_map.2 (hascending.imp fun {a b} hlt heq => ?_)
    rw [(Prod.mk.inj heq).2, Std.ReflOrd.compare_self] at hlt
    exact absurd hlt (by decide)
  · obtain ⟨group, -, rfl⟩ := List.mem_map.1 hkey
    rfl

/-! ## The anchors by what they stand for -/

/-- The anchor of a declaration under its own kind. -/
def nameAnchor (d : Declaration) : String := Anchor.declaration d.kind d.package d.name

/-- The anchors of the groups of fields of a declaration. -/
def oneofAnchors (d : Declaration) : List String :=
  d.oneofs.map fun o => Anchor.oneof d.fullName o.name

/-- Below its heading a section has the anchors of its packages, of its declarations and of the
groups of fields in them. -/
theorem perm_section {s : Section} (hs : s ∈ sections g options) :
    (s.groups.flatMap fun group => Anchor.group s.kind group.package ::
      group.declarations.flatMap (Declaration.anchors s.kind)).Perm
    (s.groups.map (fun group => Anchor.group s.kind group.package) ++
      s.declarations.flatMap fun d => nameAnchor d :: oneofAnchors d) := by
  have hkind : ∀ d ∈ s.declarations, Declaration.anchors s.kind d =
      nameAnchor d :: oneofAnchors d := by
    intro d hd
    obtain ⟨kind, -, rfl⟩ := List.mem_map.1 hs
    have hlist : d ∈ g.list kind (selection options) := hd
    rw [nameAnchor, kind_of_mem_list hlist]
    rfl
  have hflat : (s.groups.flatMap fun group =>
      group.declarations.flatMap (Declaration.anchors s.kind)) =
      s.declarations.flatMap fun d => nameAnchor d :: oneofAnchors d := by
    rw [← List.flatMap_assoc, Section.groups, PackageGroup.flatMap_ofDeclarations]
    exact List.flatMap_congr hkind
  rw [← hflat]
  exact (List.map_append_flatMap_perm _ _ _).symm

/-- The anchors of a page are those of its sections, of its packages, of its declarations and of the
groups of fields in them. -/
theorem perm_outline :
    (outline Declaration.anchors (sections g options)).Perm
      (Kind.all.map Anchor.ofKind ++
        ((shownPackages g options).map (fun key => Anchor.group key.1 key.2) ++
        ((shown g options).map nameAnchor ++ (shown g options).flatMap oneofAnchors))) := by
  have hkinds : (sections g options).map (fun s => Anchor.ofKind s.kind) =
      Kind.all.map Anchor.ofKind := by
    rw [sections, List.map_map]
    rfl
  have hpackages : (sections g options).flatMap (fun s => s.groups.map fun group =>
      Anchor.group s.kind group.package) =
      (shownPackages g options).map fun key => Anchor.group key.1 key.2 := by
    rw [shownPackages, List.map_flatMap]
    simp only [List.map_map]
    rfl
  -- each step takes the anchors of one level out, in front of those inside it
  calc outline Declaration.anchors (sections g options)
    _ ~ (sections g options).map (fun s => Anchor.ofKind s.kind) ++
      (sections g options).flatMap fun s =>
          s.groups.flatMap fun group => Anchor.group s.kind group.package ::
            group.declarations.flatMap (Declaration.anchors s.kind) :=
        (List.map_append_flatMap_perm _ _ _).symm
    _ ~ (sections g options).map (fun s => Anchor.ofKind s.kind) ++
      (sections g options).flatMap fun s =>
          s.groups.map (fun group => Anchor.group s.kind group.package) ++
            s.declarations.flatMap fun d => nameAnchor d :: oneofAnchors d :=
        (List.Perm.flatMap_left _ fun _ => perm_section).append_left _
    _ ~ (sections g options).map (fun s => Anchor.ofKind s.kind) ++
          ((sections g options).flatMap (fun s => s.groups.map fun group =>
            Anchor.group s.kind group.package) ++
          (shown g options).flatMap fun d => nameAnchor d :: oneofAnchors d) := by
        rw [shown, List.flatMap_assoc]
        exact (List.flatMap_append_perm _ _ _).symm.append_left _
    _ ~ Kind.all.map Anchor.ofKind ++
          ((shownPackages g options).map (fun key => Anchor.group key.1 key.2) ++
          ((shown g options).map nameAnchor ++ (shown g options).flatMap oneofAnchors)) := by
        rw [hkinds, hpackages]
        exact ((List.map_append_flatMap_perm _ _ _).symm.append_left _).append_left _

/-! ## Which of them meet -/

/-- The declarations of the graph have dotted names, and the groups of fields in them words. -/
def HasWords (g : Graph) : Prop :=
  ∀ d ∈ g.allDeclarations, Proto.isDotted d.fullName = true ∧
    ∀ o ∈ d.oneofs, Proto.isWord o.name = true

section Words

variable (hwords : HasWords g)

include hwords

theorem isDotted_of_mem_shown {d : Declaration} (h : d ∈ shown g options) :
    Proto.isDotted d.fullName = true := (hwords d (mem_allDeclarations_of_mem_shown h)).1

theorem group_eq_iff {d e : Declaration} (hd : d ∈ shown g options) (he : e ∈ shown g options) :
    Anchor.group d.kind d.package = Anchor.group e.kind e.package ↔
      d.kind = e.kind ∧ lowercase d.package = lowercase e.package := by
  have hdname := Declaration.isName_package (isDotted_of_mem_shown hwords hd)
  have hename := Declaration.isName_package (isDotted_of_mem_shown hwords he)
  rw [Anchor.group_eq_named d.kind hdname, Anchor.group_eq_named e.kind hename,
    Anchor.named_label_eq_iff hdname hename]

theorem nameAnchor_eq_iff {d e : Declaration} (hd : d ∈ shown g options)
    (he : e ∈ shown g options) :
    nameAnchor d = nameAnchor e ↔
      d.kind = e.kind ∧ lowercase d.fullName = lowercase e.fullName := by
  have hdname := isDotted_of_mem_shown hwords hd
  have hename := isDotted_of_mem_shown hwords he
  rw [nameAnchor, nameAnchor, Anchor.declaration_eq_named hdname,
    Anchor.declaration_eq_named hename, Anchor.named_label_eq_iff (Or.inr hdname) (Or.inr hename)]

theorem group_eq_nameAnchor_iff {d e : Declaration} (hd : d ∈ shown g options)
    (he : e ∈ shown g options) :
    Anchor.group d.kind d.package = nameAnchor e ↔
      d.kind = e.kind ∧ lowercase d.package = lowercase e.fullName := by
  have hdname := Declaration.isName_package (isDotted_of_mem_shown hwords hd)
  have hename := isDotted_of_mem_shown hwords he
  rw [nameAnchor, Anchor.group_eq_named d.kind hdname, Anchor.declaration_eq_named hename,
    Anchor.named_label_eq_iff hdname (Or.inr hename)]

/-- Every anchor but those of sections is the anchor of a name, and those of groups of fields alone
have their label. -/
theorem exists_named_of_mem (options : PageOptions) (x : String) :
    (x ∈ (shownPackages g options).map (fun key => Anchor.group key.1 key.2) →
      ∃ kind : Kind, ∃ name, Proto.IsName name ∧ x = Anchor.named kind.label name) ∧
    (x ∈ (shown g options).map nameAnchor →
      ∃ kind : Kind, ∃ name, Proto.IsName name ∧ x = Anchor.named kind.label name) ∧
    (x ∈ (shown g options).flatMap oneofAnchors →
      ∃ name, Proto.IsName name ∧ x = Anchor.named "Oneof" name) := by
  refine ⟨fun hx => ?_, fun hx => ?_, fun hx => ?_⟩
  · obtain ⟨⟨kind, package⟩, hkey, rfl⟩ := List.mem_map.1 hx
    obtain ⟨d, hd, rfl, rfl⟩ := mem_shownPackages_iff.1 hkey
    have hname := Declaration.isName_package (isDotted_of_mem_shown hwords hd)
    exact ⟨d.kind, d.package, hname, Anchor.group_eq_named d.kind hname⟩
  · obtain ⟨d, hd, rfl⟩ := List.mem_map.1 hx
    have hname := isDotted_of_mem_shown hwords hd
    exact ⟨d.kind, d.fullName, Or.inr hname, Anchor.declaration_eq_named hname⟩
  · obtain ⟨d, hd, hx⟩ := List.mem_flatMap.1 hx
    obtain ⟨o, ho, rfl⟩ := List.mem_map.1 hx
    obtain ⟨hname, honeofs⟩ := hwords d (mem_allDeclarations_of_mem_shown hd)
    exact ⟨_, Or.inr (Proto.isDotted_append hname (Proto.isDotted_of_isWord (honeofs o ho))),
      Anchor.oneof_eq_named hname (honeofs o ho)⟩

/-- The anchor of a section is no other anchor. -/
theorem disjoint_ofKind : (Kind.all.map Anchor.ofKind).Disjoint
    ((shownPackages g options).map (fun key => Anchor.group key.1 key.2) ++
      ((shown g options).map nameAnchor ++ (shown g options).flatMap oneofAnchors)) := by
  intro x hx hrest
  obtain ⟨kind, -, rfl⟩ := List.mem_map.1 hx
  obtain ⟨hgroups, hnames, honeofs⟩ := exists_named_of_mem hwords options (Anchor.ofKind kind)
  have hlabel : ∀ kind' : Kind, ∀ name, Proto.IsName name →
      Anchor.ofKind kind ≠ Anchor.named kind'.label name := fun kind' name hname =>
    Anchor.ofKind_ne_named kind (Anchor.not_mem_label kind') hname
  rcases List.mem_append.1 hrest with h | h
  · obtain ⟨kind', name, hname, h⟩ := hgroups h
    exact hlabel kind' name hname h
  · rcases List.mem_append.1 h with h | h
    · obtain ⟨kind', name, hname, h⟩ := hnames h
      exact hlabel kind' name hname h
    · obtain ⟨name, hname, h⟩ := honeofs h
      exact Anchor.ofKind_ne_named kind (by decide) hname h

/-- The anchor of a group of fields is no anchor of a package or of a declaration. -/
theorem disjoint_oneofAnchors :
    ((shownPackages g options).map (fun key => Anchor.group key.1 key.2) ++
      (shown g options).map nameAnchor).Disjoint ((shown g options).flatMap oneofAnchors) := by
  intro x hx honeof
  obtain ⟨hgroups, hnames, honeofs⟩ := exists_named_of_mem hwords options x
  obtain ⟨name, hname, heq⟩ := honeofs honeof
  obtain ⟨kind, name', hname', heq'⟩ := (List.mem_append.1 hx).elim hgroups hnames
  exact Anchor.named_oneof_ne_named_label kind hname hname' (heq.symm.trans heq')

theorem nodup_groups_iff :
    ((shownPackages g options).map fun key => Anchor.group key.1 key.2).Nodup ↔
      ∀ d ∈ shown g options, ∀ e ∈ shown g options, d.kind = e.kind →
        lowercase d.package = lowercase e.package → d.package = e.package := by
  rw [List.nodup_map_iff_inj_on nodup_shownPackages]
  constructor
  · intro h d hd e he hkind hlower
    have heq :=
      h (d.kind, d.package) (mem_shownPackages_iff.2 ⟨d, hd, rfl, rfl⟩) (e.kind, e.package)
      (mem_shownPackages_iff.2 ⟨e, he, rfl, rfl⟩) ((group_eq_iff hwords hd he).2 ⟨hkind, hlower⟩)
    exact (Prod.mk.inj heq).2
  · rintro h ⟨_, _⟩ hkey ⟨_, _⟩ hkey' heq
    obtain ⟨d, hd, rfl, rfl⟩ := mem_shownPackages_iff.1 hkey
    obtain ⟨e, he, rfl, rfl⟩ := mem_shownPackages_iff.1 hkey'
    obtain ⟨hkind, hlower⟩ := (group_eq_iff hwords hd he).1 heq
    exact Prod.ext hkind (h d hd e he hkind hlower)

theorem nodup_nameAnchors_iff :
    ((shown g options).map nameAnchor).Nodup ↔
      ∀ d ∈ shown g options, ∀ e ∈ shown g options, d.kind = e.kind →
        lowercase d.fullName = lowercase e.fullName → d = e := by
  rw [List.nodup_map_iff_inj_on nodup_shown]
  refine forall₂_congr fun d hd => forall₂_congr fun e he => ?_
  rw [nameAnchor_eq_iff hwords hd he, and_imp]

theorem disjoint_groups_iff :
    ((shownPackages g options).map fun key => Anchor.group key.1 key.2).Disjoint
        ((shown g options).map nameAnchor) ↔
      ∀ d ∈ shown g options, ∀ e ∈ shown g options, d.kind = e.kind →
        lowercase d.package ≠ lowercase e.fullName := by
  constructor
  · intro h d hd e he hkind hlower
    refine h (List.mem_map.2 ⟨(d.kind, d.package), mem_shownPackages_iff.2 ⟨d, hd, rfl, rfl⟩, rfl⟩)
      (List.mem_map.2 ⟨e, he, ?_⟩)
    exact ((group_eq_nameAnchor_iff hwords hd he).2 ⟨hkind, hlower⟩).symm
  · intro h x hx hx'
    obtain ⟨⟨_, _⟩, hkey, rfl⟩ := List.mem_map.1 hx
    obtain ⟨d, hd, rfl, rfl⟩ := mem_shownPackages_iff.1 hkey
    obtain ⟨e, he, heq⟩ := List.mem_map.1 hx'
    obtain ⟨hkind, hlower⟩ := (group_eq_nameAnchor_iff hwords hd he).1 heq.symm
    exact h d hd e he hkind hlower

/-- Once the declarations have distinct anchors, the groups of fields need distinct names only
inside one message. -/
theorem nodup_oneofAnchors_iff
    (hnames : ∀ d ∈ shown g options, ∀ e ∈ shown g options, d.kind = e.kind →
      lowercase d.fullName = lowercase e.fullName → d = e) :
    ((shown g options).flatMap oneofAnchors).Nodup ↔
      ∀ d ∈ shown g options, (d.oneofs.map fun o => lowercase o.name).Nodup := by
  have hmessage : ∀ {d : Declaration} {o : Oneof}, o ∈ d.oneofs → d.kind = .message := by
    intro d o ho
    unfold Declaration.kind
    cases hitem : d.item with
    | message m => rfl
    | service s =>
      rw [Declaration.oneofs_eq_nil fun m hm => Item.noConfusion (hitem.symm.trans hm)] at ho
      exact absurd ho List.not_mem_nil
    | enumeration e =>
      rw [Declaration.oneofs_eq_nil fun m hm => Item.noConfusion (hitem.symm.trans hm)] at ho
      exact absurd ho List.not_mem_nil
  have hanchor : ∀ {d e : Declaration}, d ∈ shown g options → e ∈ shown g options →
      ∀ {o o' : Oneof}, o ∈ d.oneofs → o' ∈ e.oneofs →
        (Anchor.oneof d.fullName o.name = Anchor.oneof e.fullName o'.name ↔
          lowercase d.fullName = lowercase e.fullName ∧ lowercase o.name = lowercase o'.name) := by
    intro d e hd he o o' ho ho'
    obtain ⟨hdname, hdwords⟩ := hwords d (mem_allDeclarations_of_mem_shown hd)
    obtain ⟨hename, hewords⟩ := hwords e (mem_allDeclarations_of_mem_shown he)
    exact Anchor.oneof_eq_iff hdname hename (hdwords o ho) (hewords o' ho')
  have hinside : ∀ d ∈ shown g options, ((oneofAnchors d).Nodup ↔
      (d.oneofs.map fun o => lowercase o.name).Nodup) := by
    intro d hd
    unfold oneofAnchors List.Nodup
    rw [List.pairwise_map, List.pairwise_map]
    refine List.Pairwise.iff_of_mem fun {o o'} ho ho' => not_congr ?_
    rw [hanchor hd hd ho ho']
    exact and_iff_right rfl
  rw [List.nodup_flatMap]
  constructor
  · rintro ⟨h, -⟩ d hd
    exact (hinside d hd).1 (h d hd)
  · intro h
    refine ⟨fun d hd => (hinside d hd).2 (h d hd), ?_⟩
    -- messages whose groups meet have one name, case aside, and so they are the same
    refine nodup_shown.imp_of_mem fun {d e} hd he hne x hx hx' => hne ?_
    obtain ⟨o, ho, rfl⟩ := List.mem_map.1 hx
    obtain ⟨o', ho', heq⟩ := List.mem_map.1 hx'
    have hlower := ((hanchor he hd ho' ho).1 heq).1
    exact hnames d hd e he ((hmessage ho).trans (hmessage ho').symm) hlower.symm

end Words

/-- When the names of a graph are made of words, the anchors of a page that is written to its end
are distinct exactly when the names on the page are, case aside. -/
theorem nodup_anchors_iff {s s' : Sink} (hwords : HasWords g)
    (h : generate g options s = (s', .ok ())) :
    (Markup.anchors (draft g options).pieces).Nodup ↔ HasDistinctNames g options := by
  have hsections : (Kind.all.map Anchor.ofKind).Nodup := by decide +kernel
  rw [(shows_draft g options (generate_eq_ok h).1).2, perm_outline.nodup_iff, List.nodup_append',
    and_iff_right hsections, and_iff_left (disjoint_ofKind hwords), ← List.append_assoc,
    List.nodup_append', and_iff_left (disjoint_oneofAnchors hwords), List.nodup_append',
    nodup_groups_iff hwords, nodup_nameAnchors_iff hwords, disjoint_groups_iff hwords]
  constructor
  · rintro ⟨⟨hpackages, hnames, hapart⟩, honeofs⟩
    exact ⟨hnames, hpackages, hapart, (nodup_oneofAnchors_iff hwords hnames).1 honeofs⟩
  · rintro ⟨hnames, hpackages, hapart, honeofs⟩
    exact ⟨⟨hpackages, hnames, hapart⟩, (nodup_oneofAnchors_iff hwords hnames).2 honeofs⟩

/-- A package with a message in a message, and the package below it. -/
def nestedPackages : List SchemaFile :=
  let field : PlainField := ⟨"f", "int32", 1, false, false, true, none⟩
  [⟨"a.proto", "p", .owned, [⟨"S", [], none⟩], [⟨"E", [], none⟩],
      [⟨"M", [.oneof "o" [.plain field] none, .oneof "m" [] none], none⟩, ⟨"M.N", [], none⟩]⟩,
    ⟨"b.proto", "p.q", .owned, [], [⟨"M_N", [], none⟩], [⟨"M", [.oneof "o" [] none], none⟩]⟩]

/-- Its names are distinct, case aside, as its anchors are. -/
theorem hasDistinctNames_nestedPackages :
    let g := Graph.ofFiles nestedPackages
    HasWords g ∧ (generate g {} Sink.unlimited).2 = .ok () ∧ HasDistinctNames g {} := by
  intro g
  have hwords : HasWords g := by
    unfold HasWords
    decide +kernel
  have hok : (generate g {} Sink.unlimited).2 = .ok () :=
    (generate_eq_ok_iff rfl rfl).2 (by decide +kernel)
  exact ⟨hwords, hok, (nodup_anchors_iff hwords (Prod.ext rfl hok)).1 (by decide +kernel)⟩

/-- Two messages whose names differ in case only. -/
def namesInTwoCases : List SchemaFile :=
  [⟨"a.proto", "p", .owned, [], [], [⟨"A", [], none⟩, ⟨"a", [], none⟩]⟩]

/-- Distinct names of messages, and of the groups of fields in each of them, are not enough for the
anchors of a page to be distinct. -/
theorem exists_repeated_anchor :
    ¬ ∀ (g : Graph) (options : PageOptions) (s s' : Sink),
      (g.allDeclarations.map Declaration.fullName).Nodup → HasWords g →
      (∀ d ∈ g.allDeclarations, (d.oneofs.map Oneof.name).Nodup) →
      generate g options s = (s', .ok ()) → (Markup.anchors (draft g options).pieces).Nodup := by
  intro h
  have hok : (generate (Graph.ofFiles namesInTwoCases) {} Sink.unlimited).2 = .ok () :=
    (generate_eq_ok_iff rfl rfl).2 (by decide +kernel)
  have hwords : HasWords (Graph.ofFiles namesInTwoCases) := by
    unfold HasWords
    decide +kernel
  have hnodup := h (Graph.ofFiles namesInTwoCases) {} Sink.unlimited _ (by decide +kernel) hwords
    (by decide +kernel) (Prod.ext rfl hok)
  revert hnodup
  decide +kernel

end Document

end SchemaPage
