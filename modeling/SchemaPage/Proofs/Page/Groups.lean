import SchemaPage.Proofs.Page.Outline

/-!
# The groups of a section

A section lists its declarations in ascending order of package and name, and its groups are the runs
of one package.  Since the package is the first part of the key, no package comes back after its run
has ended: there is one group for each package, and the groups ascend.

* `PackageGroup.IsRun`: a group has declarations, all of its own package.
* `PackageGroup.ascending_ofDeclarations`: the packages of the groups ascend strictly.
* `PackageGroup.ascending_names`: so do the names in a group.
* `Document.groups`, `Document.Lists`: the packages and names in a section, and what they are.
* `Document.lists_groups`: the groups of a section list exactly what the page is about.
-/

namespace SchemaPage

/-- The key of a listing compares packages first. -/
theorem SortKey.compare_packageThenName (d e : Declaration) :
    compare (packageThenName.of d) (packageThenName.of e) =
      (compare d.package e.package).then (compare d.name e.name) := by
  simp [of, List.compare_cons_cons]

namespace PackageGroup

/-- A group has declarations, and all of them are of its package. -/
structure IsRun (group : PackageGroup) : Prop where
  ne_nil : group.declarations ≠ []
  package_eq : ∀ d ∈ group.declarations, d.package = group.package

/-- One declaration more joins the first group or begins a group. -/
theorem ofDeclarations_cons (d : Declaration) (ds : List Declaration) :
    (∃ group gs, ofDeclarations ds = group :: gs ∧ d.package = group.package ∧
      ofDeclarations (d :: ds) = ⟨group.package, d :: group.declarations⟩ :: gs) ∨
    (∀ group, (ofDeclarations ds).head? = some group → d.package ≠ group.package) ∧
      ofDeclarations (d :: ds) = ⟨d.package, [d]⟩ :: ofDeclarations ds := by
  cases h : ofDeclarations ds with
  | nil =>
    refine Or.inr ⟨nofun, ?_⟩
    rw [ofDeclarations, h]
  | cons group gs =>
    by_cases hd : d.package = group.package
    · refine Or.inl ⟨group, gs, rfl, hd, ?_⟩
      rw [ofDeclarations, h]
      exact if_pos hd
    · refine Or.inr ⟨fun group' hhead => ?_, ?_⟩
      · rwa [← Option.some_inj.1 hhead]
      · rw [ofDeclarations, h]
        exact if_neg hd

theorem isRun_of_mem {ds : List Declaration} {group : PackageGroup}
    (h : group ∈ ofDeclarations ds) : group.IsRun := by
  induction ds generalizing group with
  | nil => exact absurd h List.not_mem_nil
  | cons d ds ih =>
    rcases ofDeclarations_cons d ds with ⟨first, gs, hds, hd, heq⟩ | ⟨-, heq⟩
    · rw [heq] at h
      rcases List.mem_cons.1 h with rfl | h
      · have hfirst := ih (hds ▸ List.mem_cons_self)
        exact ⟨List.cons_ne_nil _ _, List.forall_mem_cons.2 ⟨hd, hfirst.package_eq⟩⟩
      · exact ih (hds ▸ List.mem_cons_of_mem _ h)
    · rw [heq] at h
      rcases List.mem_cons.1 h with rfl | h
      · exact ⟨List.cons_ne_nil _ _, List.forall_mem_singleton.2 rfl⟩
      · exact ih h

theorem mem_of_mem_group {ds : List Declaration} {group : PackageGroup} {d : Declaration}
    (hgroup : group ∈ ofDeclarations ds) (hd : d ∈ group.declarations) : d ∈ ds := by
  rw [← flatMap_ofDeclarations ds]
  exact List.mem_flatMap.2 ⟨group, hgroup, hd⟩

/-- When the declarations are in order of their packages, the packages of the groups ascend
strictly. -/
theorem ascending_ofDeclarations {ds : List Declaration}
    (h : ds.Pairwise fun d e => compare d.package e.package ≠ .gt) :
    Order.Ascending package (ofDeclarations ds) := by
  induction ds with
  | nil => exact List.Pairwise.nil
  | cons d ds ih =>
    obtain ⟨hd, hds⟩ := List.pairwise_cons.1 h
    specialize ih hds
    rcases ofDeclarations_cons d ds with ⟨first, gs, hgs, -, heq⟩ | ⟨hne, heq⟩
    · rw [hgs] at ih
      rw [heq]
      exact List.pairwise_cons.2 (List.pairwise_cons.1 ih)
    · rw [heq]
      refine List.pairwise_cons.2 ⟨fun group hgroup => ?_, ih⟩
      have hle : ∀ group ∈ ofDeclarations ds, compare d.package group.package ≠ .gt := by
        intro group hgroup
        obtain ⟨e, es, hes⟩ := List.exists_cons_of_ne_nil (isRun_of_mem hgroup).ne_nil
        have he : e ∈ group.declarations := hes ▸ List.mem_cons_self
        rw [← (isRun_of_mem hgroup).package_eq e he]
        exact hd e (mem_of_mem_group hgroup he)
      -- The first group has another package, so it is beyond `d`, and so are the later groups.
      cases hgs : ofDeclarations ds with
      | nil =>
        rw [hgs] at hgroup
        exact absurd hgroup List.not_mem_nil
      | cons first gs =>
        rw [hgs] at ih hgroup
        have hfirst : compare d.package first.package = .lt := by
          have hne' : compare d.package first.package ≠ .eq := fun he =>
            hne first (by rw [hgs, List.head?_cons]) (Std.LawfulEqOrd.compare_eq_iff_eq.1 he)
          have hle' := hle first (hgs ▸ List.mem_cons_self)
          cases hcmp : compare d.package first.package with
          | lt => rfl
          | eq => exact absurd hcmp hne'
          | gt => exact absurd hcmp hle'
        rcases List.mem_cons.1 hgroup with rfl | hgroup
        · exact hfirst
        · exact Std.TransCmp.lt_trans hfirst ((List.pairwise_cons.1 ih).1 group hgroup)

variable {ds : List Declaration}

theorem pairwise_package (h : Order.Ascending SortKey.packageThenName.of ds) :
    ds.Pairwise fun d e => compare d.package e.package ≠ .gt := by
  refine h.imp fun {d e} hlt hgt => ?_
  rw [SortKey.compare_packageThenName, hgt] at hlt
  exact nomatch hlt

/-- When the declarations are in order of package and name, the names in a group ascend strictly. -/
theorem ascending_names (h : Order.Ascending SortKey.packageThenName.of ds) {group : PackageGroup}
    (hgroup : group ∈ ofDeclarations ds) :
    Order.Ascending id (group.declarations.map Declaration.name) := by
  have hsub : group.declarations.Sublist ds := by
    rw [← flatMap_ofDeclarations ds, List.flatMap_def]
    exact List.sublist_flatten_of_mem (List.mem_map_of_mem hgroup)
  have hrun := isRun_of_mem hgroup
  refine List.pairwise_map.2 ((h.sublist hsub).imp_of_mem fun {d e} hd he hlt => ?_)
  rw [SortKey.compare_packageThenName, hrun.package_eq d hd, hrun.package_eq e he,
    Std.ReflOrd.compare_self] at hlt
  exact hlt

end PackageGroup

namespace Document

/-- The packages of a section, each with the names that are listed under it. -/
def groups (g : Graph) (options : PageOptions) (kind : Kind) : List (String × List String) :=
  (PackageGroup.ofDeclarations (g.list kind (selection options))).map fun group =>
    (group.package, group.declarations.map Declaration.name)

/-- The declaration is what a page shows under a kind: it belongs to the documented project, and to
one of the files that the page is restricted to, if it is. -/
def IsSelected (g : Graph) (options : PageOptions) (kind : Kind) (d : Declaration) : Prop :=
  d ∈ g.allDeclarations ∧ d.kind = kind ∧ d.isOwned ∧ (options.paths = [] ∨ d.path ∈ options.paths)

/-- Some packages with names list what a page shows under a kind, each package once and each name
once under it, in ascending order. -/
structure Lists (g : Graph) (options : PageOptions) (kind : Kind)
    (groups : List (String × List String)) : Prop where
  packages_ascending : Order.Ascending Prod.fst groups
  names_ascending : ∀ group ∈ groups, group.2 ≠ [] ∧ Order.Ascending id group.2
  mem_iff : ∀ package name, (∃ group ∈ groups, group.1 = package ∧ name ∈ group.2) ↔
    ∃ d, IsSelected g options kind d ∧ d.package = package ∧ d.name = name

variable {g : Graph} {options : PageOptions} {kind : Kind} {d : Declaration}

theorem includes_selection_iff {file : SchemaFile} : (selection options).includes file = true ↔
    file.isOwned = true ∧ (options.paths = [] ∨ file.path ∈ options.paths) := by
  simp [selection, Selection.includes, DepFilter.admits, List.isEmpty_iff]

theorem mem_candidates_iff_isSelected :
    d ∈ g.candidates kind (selection options) ↔ IsSelected g options kind d := by
  rw [Graph.mem_candidates_iff, includes_selection_iff]
  rfl

theorem ascending_list :
    Order.Ascending SortKey.packageThenName.of (g.list kind (selection options)) :=
  Order.ascending_latest _ _

/-- What is listed under a kind is selected; of what is selected with one package and name,
something is listed. -/
theorem exists_mem_list_iff {package name : String} :
    (∃ d ∈ g.list kind (selection options), d.package = package ∧ d.name = name) ↔
      ∃ d, IsSelected g options kind d ∧ d.package = package ∧ d.name = name := by
  constructor
  · rintro ⟨d, hd, hkey⟩
    exact ⟨d, mem_candidates_iff_isSelected.1 (Graph.mem_candidates_of_mem_list hd), hkey⟩
  · rintro ⟨d, hd, rfl, rfl⟩
    obtain ⟨e, he, hkey⟩ := Order.exists_mem_latest SortKey.packageThenName.of
      (mem_candidates_iff_isSelected.2 hd)
    have hpackage : e.package = d.package := (List.cons.inj hkey).1
    have hname : e.name = d.name := (List.cons.inj (List.cons.inj hkey).2).1
    exact ⟨e, he, hpackage, hname⟩

/-- The groups of a section list what the page shows under its kind. -/
theorem lists_groups : Lists g options kind (groups g options kind) where
  packages_ascending :=
    List.pairwise_map.2 (PackageGroup.ascending_ofDeclarations
      (PackageGroup.pairwise_package ascending_list))
  names_ascending := by
    intro group hgroup
    obtain ⟨run, hrun, rfl⟩ := List.mem_map.1 hgroup
    have hne := (PackageGroup.isRun_of_mem hrun).ne_nil
    exact ⟨mt List.map_eq_nil_iff.1 hne, PackageGroup.ascending_names ascending_list hrun⟩
  mem_iff := by
    intro package name
    rw [← exists_mem_list_iff]
    constructor
    · rintro ⟨group, hgroup, rfl, hname⟩
      obtain ⟨run, hrun, rfl⟩ := List.mem_map.1 hgroup
      obtain ⟨d, hd, rfl⟩ := List.mem_map.1 hname
      exact ⟨d, PackageGroup.mem_of_mem_group hrun hd,
        (PackageGroup.isRun_of_mem hrun).package_eq d hd, rfl⟩
    · rintro ⟨d, hd, rfl, rfl⟩
      rw [← PackageGroup.flatMap_ofDeclarations (g.list kind (selection options))] at hd
      obtain ⟨run, hrun, hd⟩ := List.mem_flatMap.1 hd
      exact ⟨_, List.mem_map_of_mem hrun, ((PackageGroup.isRun_of_mem hrun).package_eq d hd).symm,
        List.mem_map_of_mem hd⟩

end Document

end SchemaPage
