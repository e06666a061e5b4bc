import SchemaPage.Proofs.Page.Limited
import SchemaPage.Proofs.Schema.Chosen
import SchemaPage.Proofs.Source.Lenient

/-!
# Pages that do not depend on the mode

Where no import may be missing a page shows what the compiler took its type names for.  Where
imports may be missing it shows what the search through the scopes finds, among all declarations of
the graph and not only among those that a file sees.  The page is the same when the search finds
nothing but what the compiler could have taken the names for.

* `Sources.Admits`: what the compiler could take a type name for.
* `Compiler.Built.settles`: the types that are known in a file of a pool are declared in the graph.
* `Sources.Follows`: a declaration, and what has become of it by linking.
* `Graph.generate_lenient_of_load`: both modes load the same files and write the same pages.
* `Document.size_eq_of_generate_eq`: what has to be the same where two pages are.
* `Graph.exists_load_with_two_pages`: the search may find something that the file does not see.
-/

namespace SchemaPage

open Proto

/-- What the compiler could take a type name for that is written inside `d`: a scalar, unless `d` is
a service, or a type in a file that the file of `d` sees, and only a message where `d` is a
service. -/
def Sources.Admits (fs : FileSystem) (sources : Sources) (d : Declaration) : ResolvedType → Prop
  | .scalar _ => d.kind ≠ .service
  | .declared e => (sources.library fs).Sees d.path e.path ∧ e.kind ≠ .service ∧
      (d.kind = .service → e.kind = .message)

/-! ## Types that are folded back -/

namespace Proto.FileDescriptor

variable {f : FileDescriptor}

/-- A type of a readable file is declared or folded back. -/
theorem perm_typeNames_of_isReadable (h : f.isReadable = true) :
    f.typeNames.Perm (f.declaredTypes ++ f.entryTypes) :=
  perm_typeNames fun _ hm n hn =>
    (isWord_iff.1 (isWord_of_mem_allMessages h n (List.mem_flatMap_of_mem hm hn))).1

theorem entryTypes_subset_typeNames (h : f.isReadable = true) : f.entryTypes ⊆ f.typeNames :=
  fun _ hn => (perm_typeNames_of_isReadable h).mem_iff.2 (List.mem_append_right _ hn)

end Proto.FileDescriptor

namespace Compiler

variable {library : Library} {pool : List Compiled} {c : Compiled} {f : FileDescriptor}
  {names : Names}

section Settled

variable (h : Built library pool)
  (hreadable : ∀ name path f, library name = .found path f → f.isReadable = true)
  (hmarks : ∀ c ∈ pool, ∀ f, library c.name = .found c.path f → f.Unmarked)

include h hreadable hmarks

/-- A file of a pool declares the types that it declared before it was linked. -/
theorem Built.mem_declaredTypes_iff (hc : c ∈ pool) (hfound : library c.name = .found c.path f)
    {n : String} : n ∈ f.declaredTypes ↔ n ∈ c.linked.file.declaredTypes := by
  obtain ⟨names, hresolves⟩ := h.resolves_of_found hc hfound
  exact SchemaFile.mem_declaredTypes_iff_of_matches
    (SchemaFile.matches_ofDescriptor hresolves (hreadable _ _ _ hfound)
      (hmarks c hc _ hfound) .owned)
    fun _ _ hd => hd.same

/-- No file of a pool declares a type that another one folded back before it was linked. -/
theorem Built.not_mem_declaredTypes (hc : c ∈ pool) (hfound : library c.name = .found c.path f)
    {n : String} (hn : n ∈ f.entryTypes) :
    n ∉ (pool.map (·.linked.file)).flatMap FileDescriptor.declaredTypes := by
  have hsettled := h.settled hreadable
  obtain ⟨names, hresolves⟩ := h.resolves_of_found hc hfound
  have hf := hreadable _ _ _ hfound
  have hmem : c.linked.file ∈ pool.map (·.linked.file) := List.mem_map_of_mem hc
  -- a type has one place, so what a file has folded back it still does
  have hnodup : f.typeNames.Nodup := by
    rw [← hresolves.typeNames_eq]
    exact (List.nodup_flatMap.1 hsettled.types).1 _ hmem
  have hown : n ∉ f.declaredTypes := fun hdeclared =>
    (List.nodup_append.1 ((FileDescriptor.perm_typeNames_of_isReadable hf).nodup hnodup)).2.2 _
      hdeclared _ hn rfl
  have hentry : n ∈ (pool.map (·.linked.file)).flatMap FileDescriptor.entryTypes := by
    have htype : n ∈ c.linked.file.typeNames := by
      rw [hresolves.typeNames_eq]
      exact FileDescriptor.entryTypes_subset_typeNames hf hn
    have hperm := FileDescriptor.perm_typeNames (f := c.linked.file) fun m hm o ho =>
      hsettled.named _ hmem o (List.mem_flatMap_of_mem hm ho)
    refine List.mem_flatMap.2 ⟨_, hmem, (List.mem_append.1 (hperm.mem_iff.1 htype)).resolve_left ?_⟩
    rwa [← h.mem_declaredTypes_iff hreadable hmarks hc hfound]
  exact fun hdeclared =>
    (List.nodup_append.1 (hsettled.perm_types.nodup hsettled.types)).2.2 _ hdeclared _ hentry rfl

/-- Nothing is declared inside a type that is folded back. -/
theorem Built.nameIn_not_mem_declaredTypes (hc : c ∈ pool)
    (hfound : library c.name = .found c.path f)
    {scope : String} (hscope : scope ∈ f.entryTypes) (x : String) :
    nameIn scope x ∉ (pool.map (·.linked.file)).flatMap FileDescriptor.declaredTypes := by
  intro hx
  obtain ⟨e', he', hx⟩ := List.mem_flatMap.1 hx
  obtain ⟨e, he, rfl⟩ := List.mem_map.1 he'
  obtain ⟨g, -, hg, -⟩ := h.resolves_of_mem he
  have hf := hreadable _ _ _ hfound
  have htype := FileDescriptor.entryTypes_subset_typeNames hf hscope
  have hne : scope ≠ "" := ne_empty_of_isDotted (FileDescriptor.isDotted_of_mem_typeNames hf htype)
  obtain ⟨s, hs, hsname, hcases⟩ := FileDescriptor.exists_symbol_of_mem_scopes (hreadable _ _ _ hg)
    ((h.mem_declaredTypes_iff hreadable hmarks he hg).2 hx) (mem_scopes_of_nameIn hne x) hne
  rcases hcases with hpackage | hdeclared
  · -- a package and a type of one name would clash
    obtain ⟨t, ht, httype, htname⟩ := FileDescriptor.mem_typeNames_iff.1 htype
    obtain ⟨s', hs', halike⟩ := h.exists_alike he hg hs
    obtain ⟨t', ht', halike'⟩ := h.exists_alike hc hfound ht
    have hname : t'.name = s'.name := by rw [← halike.name, ← halike'.name, hsname, htname]
    have hnot : t'.isPackage = false := Symbol.isPackage_of_isType (halike'.isType ▸ httype)
    have heq :=
      h.apart.eq_of_name_eq (List.mem_flatMap_of_mem hc ht') (List.mem_flatMap_of_mem he hs')
      hname hnot
    rw [heq, ← halike.isPackage, hpackage] at hnot
    exact Bool.noConfusion hnot
  · exact h.not_mem_declaredTypes hreadable hmarks hc hfound hscope
      (List.mem_flatMap.2 ⟨_, List.mem_map_of_mem he,
        (h.mem_declaredTypes_iff hreadable hmarks he hg).1 hdeclared⟩)

/-- The types that are known in a file of a pool are declared in the graph, unless they are folded
back. -/
theorem Built.settles {owned : List String} {g : Graph}
    (hcorresponds : g.Corresponds (Graph.ofDescriptors owned (pool.map (·.linked.file))))
    (hc : c ∈ pool) (hfound : library c.name = .found c.path f)
    (hnames : Understands library pool c f names) :
    names.Settles f.entryTypes (foldedTypes (pool.map (·.linked.file))) g := by
  have hsettled := h.settled hreadable
  have hfolded : ∀ s ∈ names.symbols, s.isType = true →
      s.written ∉ foldedTypes (pool.map (·.linked.file)) →
      s.name ∈ (pool.map (·.linked.file)).flatMap FileDescriptor.typeNames ∧
        s.name ∉ (pool.map (·.linked.file)).flatMap FileDescriptor.entryTypes :=
    fun s hs htype hhidden =>
      ⟨hnames.types s hs htype, fun hentry => hhidden (List.mem_map_of_mem hentry)⟩
  constructor
  · intro s hs htype hhidden
    obtain ⟨hknown, hentry⟩ := hfolded s hs htype hhidden
    have hsome :=
      Graph.lookup_isSome_iff.2 ((hsettled.exists_declaration_iff owned hknown).2 hentry)
    rcases hcorresponds s.name with ⟨-, hnone⟩ | ⟨d, d', hd, -, -⟩
    · have hnone' :
          (Graph.ofFiles ((pool.map (·.linked.file)).map (schemaFile owned))).lookup s.name =
            none := hnone
      rw [hnone'] at hsome
      exact absurd hsome Bool.false_ne_true
    · rw [hd]
      rfl
  · intro scope hscope s hs htype hhidden x hname
    obtain ⟨hknown, hentry⟩ := hfolded s hs htype hhidden
    have hdeclared :=
      (List.mem_append.1 (hsettled.perm_types.mem_iff.1 hknown)).resolve_right hentry
    rw [hname] at hdeclared
    exact h.nameIn_not_mem_declaredTypes hreadable hmarks hc hfound hscope x hdeclared

end Settled

end Compiler

/-! ## Declarations before and after linking -/

/-- A file that is not well known is as it is read. -/
theorem Sources.isWritten_of_found {fs : FileSystem} {sources : Sources} {name path : String}
    {f : FileDescriptor} (h : sources.library fs name = .found (some path) f) : f.IsWritten := by
  obtain ⟨-, bytes, text, -, -, hparse⟩ := read_of_openAt (openAt_of_found h)
  exact FileDescriptor.isWritten_of_parse? hparse

/-- What has become of a declaration by linking.  Of an owned one the members are the same, but for
the types that they write down: each of these becomes what it means in the file. -/
structure Sources.Follows (fs : FileSystem) (sources : Sources) (pool : List Compiled)
    (d d' : Declaration) : Prop where
  same : d.Matches d'
  item : d.isOwned = true → ∃ c ∈ pool, ∃ f names, sources.library fs c.name = .found c.path f ∧
    d.path = c.name ∧ Compiler.Understands (sources.library fs) pool c f names ∧
    Item.Alike (names.Means f.entryTypes d) d.item d'.item

/-- The declarations of a file follow one by one when the file is linked. -/
theorem Sources.Pairs.matches {fs : FileSystem} {sources : Sources} {pool : List Compiled}
    (hpool : Compiler.Compiles (sources.library fs) sources.roots
      ((sources.ownedFiles fs).map (·.path)) pool) (hnames : sources.NamesFirst fs)
    (hplain : ∀ f ∈ sources.lenient.descriptors fs, f.Unmarked ∧ f.Distinct)
    {file file' : SchemaFile} (h : sources.Pairs fs pool file file') :
    SchemaFile.Matches (sources.Follows fs pool) file file' := by
  obtain ⟨f, c, hc, hfound, hf, rfl, rfl⟩ := h
  obtain ⟨f', names, hfound', hunderstands⟩ := hpool.built.understands named_library
    (fun _ _ _ => isReadable_of_found) hc
  obtain ⟨-, rfl⟩ := Opening.found.inj (hfound.symm.trans hfound')
  obtain ⟨hmarks, hdistinct⟩ := hplain f hf
  have hname : f.name = c.name := named_library hfound
  have hownership : schemaFile (ownedNames (sources.ownedFiles fs)) c.linked.file =
      .ofDescriptor
        (if (ownedNames (sources.ownedFiles fs)).contains f.name then .owned else .imported)
        c.linked.file := by
    rw [hname]
    rfl
  have hmatches :=
    SchemaFile.matches_ofDescriptor hunderstands.resolves (isReadable_of_found hfound)
    hmarks (if (ownedNames (sources.ownedFiles fs)).contains f.name then .owned else .imported)
  rw [hownership]
  refine ⟨hmatches.path, hmatches.ownership, fun kind => ?_⟩
  refine (Outcome.forall₂_and_mem (hmatches.declarations kind)).imp fun d d' hd => ?_
  obtain ⟨hmem, -, hkeeps⟩ := hd
  have hfile := SchemaFile.file_of_mem_declarations hmem
  refine ⟨hkeeps.same, fun howned => ⟨c, hc, f, names, hfound, ?_, hunderstands, ?_⟩⟩
  · unfold Declaration.path
    rw [hfile]
    exact hname
  · -- an owned file was read from the path at which it was found
    have hmine : f.name ∈ ownedNames (sources.ownedFiles fs) := by
      unfold Declaration.isOwned at howned
      rw [hfile] at howned
      exact isOwned_schemaFile_iff.1 howned
    obtain ⟨o, ho, honame⟩ := mem_ownedNames_iff.1 hmine
    obtain ⟨c', hc', hcname, hpath⟩ := exists_compiled_of_owned hpool hnames ho
    obtain rfl := hpool.built.eq_of_name_eq hc' hc (hcname.trans (honame.trans hname))
    unfold Compiler.isPath at hpath
    obtain ⟨path, hsome, -⟩ := (Option.any_eq_true _ _).1 hpath
    rw [hsome] at hfound
    exact hkeeps.item (isWritten_of_found hfound) hdistinct hunderstands.owns

namespace Graph

variable {fs : FileSystem} {sources : Sources} {pool : List Compiled} {g g' : Graph}

/-- What the compiler could take a type name for it knows. -/
theorem admits_of_resolve {c : Compiled} {f : FileDescriptor} {names : Names}
    (hunderstands : Compiler.Understands (sources.library fs) pool c f names)
    (hlenient : (load fs sources.lenient).value = .ok g') {d : Declaration} (hd : d.path = c.name)
    {w : String} {r : ResolvedType} (hr : g'.resolve d w = .ok (some r))
    (hadmits : sources.Admits fs d r) :
    names.Admits d r := by
  cases r with
  | scalar s => exact hadmits
  | declared e =>
    obtain ⟨hsees, hkind, hmessage⟩ := hadmits
    obtain ⟨-, hgathered, rfl⟩ := load_eq_ok_iff.1 hlenient
    obtain ⟨g, hg, he⟩ := exists_descriptor_of_mem (mem_of_resolve hr)
    obtain ⟨path, hfound⟩ := (Sources.gathers_of_descriptors rfl hgathered).found g hg
    have hfile := SchemaFile.file_of_mem_allDeclarations he
    have hpath : e.path = g.name := by
      unfold Declaration.path
      rw [hfile]
      rfl
    rw [hd, hpath] at hsees
    obtain ⟨htypes, hmessages⟩ := hunderstands.knows g.name path g hsees hfound
    refine ⟨htypes _ (mem_declaredTypes_iff.2 ⟨e, he, hkind, rfl⟩), fun hservice => ?_⟩
    have he := SchemaFile.mem_allDeclarations_iff.1 he
    rw [hmessage hservice] at he
    obtain ⟨m, hm, rfl⟩ := List.mem_map.1 he
    obtain ⟨p, hp, rfl⟩ := List.mem_map.1 hm
    exact hmessages p hp

/-- What is loaded with all its imports is loaded where imports may be missing, and then the files
have the same paths, and the same of them are owned.  The pages are the same, too, when the page of
linked files is written to its end, map entries are told apart from everything else, and the search
through the scopes takes type names for nothing but what the compiler could take them for. -/
theorem generate_lenient_of_load (hstrict : sources.skipMissing = false)
    (hnames : sources.NamesFirst fs) (hload : (load fs sources).value = .ok g) :
    ∃ g', (load fs sources.lenient).value = .ok g' ∧
      g'.files.map (fun file => (file.path, file.ownership)) =
        g.files.map (fun file => (file.path, file.ownership)) ∧
      ((∀ f ∈ sources.lenient.descriptors fs, f.Unmarked ∧ f.Distinct) → ∀ options,
        (Document.generate g options Sink.unlimited).2 = .ok () →
        (∀ d ∈ Document.shown g' options, ∀ w ∈ d.references options, ∀ r,
          g'.resolve d w = .ok (some r) → sources.Admits fs d r) →
        ∀ s, Document.generate g' options s = Document.generate g options s) := by
  obtain ⟨g', hlenient⟩ := exists_load_lenient hstrict hnames hload
  refine ⟨g', hlenient, map_files_of_load hstrict hnames hload hlenient,
    fun hplain options hpage hadmits s => ?_⟩
  -- the page ends well, so nothing on it refers to a type that is folded back
  have hhidden := ((generate_isOk_iff_of_load hload options rfl rfl).1 hpage).resolve_left
    (hstrict ▸ Bool.false_ne_true)
  obtain ⟨-, hdescriptors, hg⟩ := load_eq_ok_iff.1 hload
  obtain ⟨-, hgathered, hg'⟩ := load_eq_ok_iff.1 hlenient
  obtain ⟨pool, hpool, hfiles⟩ := Sources.compiles_of_descriptors hstrict hdescriptors
  have hreadable : ∀ name path f, sources.library fs name = .found path f → f.isReadable = true :=
    fun _ _ _ => Sources.isReadable_of_found
  have hpairs := forall₂_files_of_load hstrict hnames hload hlenient hpool hfiles
  have hmatches : List.Forall₂ (SchemaFile.Matches (sources.Follows fs pool)) g'.files g.files :=
    hpairs.imp fun _ _ => Sources.Pairs.matches hpool hnames hplain
  have hmarks : ∀ c ∈ pool, ∀ f, sources.library fs c.name = .found c.path f → f.Unmarked :=
    fun c hc f hfound => (hplain f (Sources.mem_descriptors_lenient hstrict hnames
      (hfiles ▸ hdescriptors) hgathered hc hfound)).1
  have hcorresponds : g'.Corresponds g := by
    rw [hg, hg'] at hmatches ⊢
    exact corresponds_ofFiles (fun _ _ hd => hd.same) hmatches
  have hlookups : g'.Corresponds (ofDescriptors (ownedNames (sources.ownedFiles fs))
      (pool.map (·.linked.file))) := by
    rw [hg, hfiles] at hcorresponds
    exact hcorresponds
  have hsound : ∀ n e, g'.lookup n = some e → e.fullName = n := by
    rw [hg']
    exact fun n e => fullName_of_lookup
  have hdraft : Document.draft g' options = Document.draft g options := by
    refine Document.draft_eq (fun _ _ hd => hd.same) hmatches fun d hd d' hd' hdd' kind => ?_
    obtain ⟨c, hc, f, names, hfound, hpath, hunderstands, halike⟩ :=
      hdd'.item (Document.isOwned_of_mem_shown hd)
    refine Declaration.draft_eq hdd'.same halike (fun w hw w' hw' hmeans => ?_) kind
    have hsettles := hpool.built.settles hreadable hmarks hlookups hc hfound hunderstands
    refine Reference.ofType_eq_of_means hcorresponds hsound hsettles hdd'.same
      (fun n hn htype => (hpool.built.settled hreadable).dotted _ (hunderstands.types n hn htype))
        hmeans
      ?_ fun r hr => admits_of_resolve hunderstands hlenient hpath hr (hadmits d hd w hw r hr)
    rw [← hfiles]
    exact (hhidden d' hd' w' hw').2
  unfold Document.generate
  rw [hdraft]

/-! ## A page that is the same -/

/-- A file whose types come from a file that the import in between passes on. -/
def passedOnTree : FileSystem :=
  { tree := .dir
      [("base.proto", .file "package a; message X \x7b\x7d enum E \x7b Z = 0; \x7d".toUTF8),
        ("main.proto", .file ("package a.b; import \"mid.proto\";" ++
          "message M \x7b optional X x = 1; map<string, E> es = 2; \x7d" ++
          "service S \x7b rpc Get(M) returns (X); \x7d").toUTF8),
        ("mid.proto", .file "import public \"base.proto\";".toUTF8)]
    workingDir := [] }

theorem sees_passedOnTree : (strictSources.library passedOnTree).Sees "main.proto" "base.proto" :=
  Or.inr ⟨"mid.proto", by decide +kernel, .single (by decide +kernel)⟩

/-- The page of these files is the same in both modes. -/
theorem generate_passedOnTree :
    ∃ g g', (load passedOnTree strictSources).value = .ok g ∧
      (load passedOnTree strictSources.lenient).value = .ok g' ∧
      strictSources.skipMissing = false ∧ strictSources.NamesFirst passedOnTree ∧
      (∀ f ∈ strictSources.lenient.descriptors passedOnTree, f.Unmarked ∧ f.Distinct) ∧
      (Document.generate g {} Sink.unlimited).2 = .ok () ∧
      (∀ d ∈ Document.shown g' {}, ∀ w ∈ d.references {}, ∀ r,
        g'.resolve d w = .ok (some r) → strictSources.Admits passedOnTree d r) ∧
      g'.files.map (fun file => (file.path, file.ownership)) =
        g.files.map (fun file => (file.path, file.ownership)) ∧
      ∀ s, Document.generate g' {} s = Document.generate g {} s := by
  have hnames : strictSources.NamesFirst passedOnTree := by decide +kernel
  have hplain : ∀ f ∈ strictSources.lenient.descriptors passedOnTree, f.Unmarked ∧ f.Distinct := by
    decide +kernel
  have hpage : (load passedOnTree strictSources).value.toOption.any (fun g =>
      (Document.draft g {}).failure.isNone) = true := by
    decide +kernel
  have hmeant : (load passedOnTree strictSources.lenient).value.toOption.any (fun g =>
      (Document.shown g {}).all fun d => (d.references {}).all fun w =>
        (g.resolve d w).toOption.join.all fun
          | .scalar _ => d.kind != .service
          | .declared e => d.path == "main.proto" && ["main.proto", "base.proto"].contains e.path &&
              e.kind != .service && (d.kind != .service || e.kind == .message)) = true := by
    decide +kernel
  obtain ⟨g, hload, hnone⟩ := Outcome.exists_ok_of_any hpage
  obtain ⟨g₁, hlenient, hall⟩ := Outcome.exists_ok_of_any hmeant
  obtain ⟨g', hload', hfiles, hsame⟩ := generate_lenient_of_load rfl hnames hload
  obtain rfl := Except.ok.inj (hlenient.symm.trans hload')
  have hok : (Document.generate g {} Sink.unlimited).2 = .ok () :=
    (Document.generate_eq_ok_iff rfl rfl).2 (Option.isNone_iff_eq_none.1 hnone)
  have hadmits : ∀ d ∈ Document.shown g₁ {}, ∀ w ∈ d.references {}, ∀ r,
      g₁.resolve d w = .ok (some r) → strictSources.Admits passedOnTree d r := by
    intro d hd w hw r hr
    have hcheck := List.all_eq_true.1 (List.all_eq_true.1 hall d hd) w hw
    rw [hr] at hcheck
    cases r with
    | scalar s => exact bne_iff_ne.1 hcheck
    | declared e =>
      obtain ⟨⟨⟨hpath, hfile⟩, hkind⟩, hmessage⟩ :
          ((d.path = "main.proto" ∧ (e.path = "main.proto" ∨ e.path = "base.proto")) ∧
            ¬e.kind = .service) ∧ (¬d.kind = .service ∨ e.kind = .message) := by
        simpa [Except.toOption] using hcheck
      refine ⟨?_, hkind, fun hservice => hmessage.resolve_left (absurd hservice)⟩
      rw [hpath]
      rcases hfile with hfile | hfile
      · exact Or.inl hfile.symm
      · exact hfile ▸ sees_passedOnTree
  exact ⟨g, g₁, hload, hlenient, rfl, hnames, hplain, hok, hadmits, hfiles,
    hsame hplain {} hok hadmits⟩

end Graph

/-! ## A page that is not the same -/

/-- The bytes that pieces take up. -/
def Markup.size : List Piece → Nat
  | [] => 0
  | piece :: pieces => piece.render.utf8ByteSize + size pieces

theorem Markup.utf8ByteSize_render (pieces : List Piece) :
    (render pieces).utf8ByteSize = size pieces := by
  induction pieces with
  | nil => rfl
  | cons piece pieces ih =>
    have hrender : render (piece :: pieces) = piece.render ++ render pieces := String.join_cons
    rw [hrender, String.utf8ByteSize_append, ih]
    rfl

namespace Document

/-- What a page shows below its header. -/
def afterHeader (g : Graph) (options : PageOptions) : Draft :=
  .ofPieces (nav (sections g options)) ++
    (content g options (sections g options) ++ .ofPieces Frame.footer)

theorem draft_eq_header_append (g : Graph) (options : PageOptions) :
    draft g options = .ofPieces (Frame.header options.title) ++ afterHeader g options := by
  unfold draft afterHeader
  rw [Draft.append_assoc, Draft.append_assoc]

theorem text_draft (g : Graph) (options : PageOptions) :
    (draft g options).text =
      Markup.render (Frame.header options.title) ++ (afterHeader g options).text := by
  rw [draft_eq_header_append]
  exact Markup.render_append _ _

/-- Pages that are the same have as much below the header, which shows nothing but the title. -/
theorem size_eq_of_generate_eq {g g' : Graph} {options : PageOptions}
    (h : generate g' options Sink.unlimited = generate g options Sink.unlimited) :
    Markup.size (afterHeader g' options).pieces = Markup.size (afterHeader g options).pieces := by
  have htaken : (draft g' options).text.toUTF8 = (draft g options).text.toUTF8 := by
    rw [generate_unlimited, generate_unlimited] at h
    exact congrArg Sink.taken (congrArg Prod.fst h)
  have hsize : (draft g' options).text.utf8ByteSize = (draft g options).text.utf8ByteSize :=
    congrArg ByteArray.size htaken
  rw [text_draft, text_draft, String.utf8ByteSize_append, String.utf8ByteSize_append] at hsize
  rw [← Markup.utf8ByteSize_render, ← Markup.utf8ByteSize_render]
  exact Nat.add_left_cancel hsize

end Document

namespace Graph

/-- A file whose import does not pass on the file in which the search finds the type first. -/
def hiddenTree : FileSystem :=
  { tree := .dir
      [("inc", .dir
          [("x.proto", .file "package a; import \"y.proto\"; message X \x7b\x7d".toUTF8),
            ("y.proto", .file "package a.b; message X \x7b\x7d".toUTF8)]),
        ("own", .dir
          [("m.proto", .file ("package a.b; import \"x.proto\";" ++
            "message M \x7b optional X x = 1; \x7d").toUTF8)])]
    workingDir := [] }

/-- The file is owned, and no import may be missing. -/
def hiddenSources : Sources := { roots := [⟨"own", ""⟩], includes := ["inc"], skipMissing := false }

/-- What is loaded with all its imports may have another page where imports may be missing. -/
theorem exists_load_with_two_pages :
    ¬ ∀ (fs : FileSystem) (sources : Sources) (g : Graph), sources.skipMissing = false →
      (load fs sources).value = .ok g →
        ∃ g', (load fs sources.lenient).value = .ok g' ∧
          g'.files.map (fun file => (file.path, file.ownership)) =
            g.files.map (fun file => (file.path, file.ownership)) ∧
          ∀ options s, (Document.generate g options s).2 = .ok () →
            Document.generate g' options s = Document.generate g options s := by
  intro h
  have hstrict : (load hiddenTree hiddenSources).value.toOption.any (fun g =>
      (Document.draft g {}).failure.isNone &&
        Markup.size (Document.afterHeader g {}).pieces == 1751) = true := by
    decide +kernel
  have hlenient : (load hiddenTree hiddenSources.lenient).value.toOption.any (fun g =>
      Markup.size (Document.afterHeader g {}).pieces == 1753) = true := by
    decide +kernel
  obtain ⟨g, hload, hpage⟩ := Outcome.exists_ok_of_any hstrict
  obtain ⟨hnone, hsize⟩ := Bool.and_eq_true_iff.1 hpage
  obtain ⟨g₁, hload₁, hsize₁⟩ := Outcome.exists_ok_of_any hlenient
  obtain ⟨g', hload', -, hsame⟩ := h hiddenTree hiddenSources g rfl hload
  obtain rfl := Except.ok.inj (hload₁.symm.trans hload')
  have hok : (Document.generate g {} Sink.unlimited).2 = .ok () :=
    (Document.generate_eq_ok_iff rfl rfl).2 (Option.isNone_iff_eq_none.1 hnone)
  have heq := Document.size_eq_of_generate_eq (hsame {} Sink.unlimited hok)
  rw [beq_iff_eq.1 hsize, beq_iff_eq.1 hsize₁] at heq
  exact absurd heq (by decide)

end Graph

end SchemaPage
