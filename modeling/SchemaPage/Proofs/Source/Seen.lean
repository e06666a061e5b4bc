import Mathlib.Data.List.Infix
import SchemaPage.Proofs.Schema.Matched
import SchemaPage.Proofs.Source.Settled

/-!
# What a file sees

A name in a file may mean what the file declares itself, what the files declare that it imports, and
what these pass on by public imports.  All of it is known when the file is linked, and so are the
scopes around it.

* `Library.PassesOn`, `Library.Sees`: the files whose names a file may use.
* `Compiler.Built.mem_exports`, `Compiler.Adds.mem_reached_of_sees`: what a linked file passes on,
  and what it reaches.
* `Compiler.Understands`: what the names in a file of a pool are known to mean.
* `Compiler.Built.understands`: this much is known in every file of a pool.
-/

namespace SchemaPage

open Proto

/-! ## Files that see one another -/

namespace Library

variable {library : Library}

/-- The file with the name `a` imports the name `b` publicly. -/
def PassesOn (library : Library) (a b : String) : Prop :=
  ∃ path f, library a = .found path f ∧ ∃ d ∈ f.dependencies, d.isPublic = true ∧ d.path = b

/-- The file with the name `a` may use what the file with the name `b` declares: it is that file, or
it imports a file that is or passes on that file. -/
def Sees (library : Library) (a b : String) : Prop :=
  a = b ∨ ∃ c, library.Imports a c ∧ Relation.ReflTransGen library.PassesOn c b

theorem passesOn_iff {a b : String} :
    library.PassesOn a b ↔ ∃ d ∈ (library a).dependencies, d.isPublic = true ∧ d.path = b := by
  simp only [PassesOn, Opening.mem_dependencies_iff]
  exact ⟨fun ⟨path, f, hfound, d, hd, hb⟩ => ⟨d, ⟨path, f, hfound, hd⟩, hb⟩,
    fun ⟨d, ⟨path, f, hfound, hd⟩, hb⟩ => ⟨path, f, hfound, d, hd, hb⟩⟩

instance (a b : String) : Decidable (library.PassesOn a b) := decidable_of_iff _ passesOn_iff.symm

theorem PassesOn.imports {a b : String} (h : library.PassesOn a b) : library.Imports a b := by
  obtain ⟨path, f, hfound, d, hd, -, rfl⟩ := h
  exact ⟨path, f, hfound, List.mem_map_of_mem hd⟩

theorem reaches_of_passesOn {a b : String} (h : Relation.ReflTransGen library.PassesOn a b) :
    library.Reaches a b :=
  Relation.ReflTransGen.mono (fun _ _ => PassesOn.imports) _ _ h

end Library

namespace Compiler

variable {library : Library} {pool before : List Compiled}

/-- What a pool begins with is a pool. -/
theorem Built.of_prefix (h : Built library pool) (hbefore : before <+: pool) :
    Built library before := by
  induction h with
  | nil =>
    rw [List.prefix_nil.1 hbefore]
    exact .nil
  | @snoc pool c f hbuilt hadds ih =>
    rcases List.prefix_concat_iff.1 hbefore with rfl | hbefore
    · exact .snoc hbuilt hadds
    · exact ih hbefore

/-! ## What is passed on -/

/-- What a file of a pool passes on is what it was linked to pass on. -/
theorem Built.exportsAfter_eq (h : Built library pool) {c : Compiled} (hc : c ∈ pool) :
    FileDescriptor.exportsAfter (pool.map (·.linked)) c.name = c.linked.exports := by
  have hsome : ((pool.map (·.linked)).find? (·.file.name == c.name)).isSome = true := by
    rw [List.find?_isSome]
    exact ⟨c.linked, List.mem_map_of_mem hc, beq_self_eq_true c.name⟩
  obtain ⟨l, hl⟩ := Option.isSome_iff_exists.1 hsome
  obtain ⟨d, hd, rfl⟩ := List.mem_map.1 (List.mem_of_find?_eq_some hl)
  have hname : d.linked.file.name = c.name := by simpa using List.find?_some hl
  unfold FileDescriptor.exportsAfter
  rw [hl, h.eq_of_name_eq hd hc hname]
  rfl

/-- A file passes on itself and whatever is met along public imports. -/
theorem Built.mem_exports {a b : String} (hpasses : Relation.ReflTransGen library.PassesOn a b) :
    ∀ {pool : List Compiled}, Built library pool →
      ∀ c ∈ pool, c.name = a → b ∈ c.linked.exports := by
  induction hpasses using Relation.ReflTransGen.head_induction_on with
  | refl =>
    rintro pool hbuilt c hc rfl
    obtain ⟨before, f, -, hadds⟩ := hbuilt.adds_of_mem hc
    obtain ⟨reached, -, hresolves⟩ := hadds.links.resolves
    have hname : c.name = f.name := hresolves.name
    rw [hadds.links.exports, hname]
    exact List.mem_cons_self
  | head himport _ ih =>
    rintro pool hbuilt c hc rfl
    obtain ⟨path, g, hfound, d, hd, hpublic, rfl⟩ := himport
    obtain ⟨before, f, hbefore, hadds⟩ := hbuilt.adds_of_mem hc
    obtain rfl := hadds.eq_of_found hfound
    obtain ⟨e, he, hename⟩ := done_iff.1 (hadds.imports d.path (List.mem_map_of_mem hd))
    have hbuilt' := hbuilt.of_prefix hbefore
    rw [hadds.links.exports]
    refine List.mem_cons_of_mem _ (List.mem_flatMap.2 ⟨d, List.mem_filter.2 ⟨hd, hpublic⟩, ?_⟩)
    rw [← hename, hbuilt'.exportsAfter_eq he]
    exact ih hbuilt' e he hename

end Compiler

/-- A linked file reaches itself and what its imports pass on. -/
theorem Proto.FileDescriptor.mem_of_reachedAfter? {pool : List Linked} {f : FileDescriptor}
    {reached : List String} (h : f.reachedAfter? pool = some reached) :
    f.name ∈ reached ∧ ∀ d ∈ f.dependencies, exportsAfter pool d.path ⊆ reached := by
  -- whatever is reached before an import is reached after it
  suffices ∀ (ds : List Dependency) (start reached : List String),
      ds.foldlM (fun reached d => if reached.contains d.path then none
        else some (reached ++ exportsAfter pool d.path)) start = some reached →
      start ⊆ reached ∧ ∀ d ∈ ds, exportsAfter pool d.path ⊆ reached by
    obtain ⟨hstart, hdeps⟩ := this f.dependencies [f.name] reached h
    exact ⟨hstart List.mem_cons_self, hdeps⟩
  intro ds
  induction ds with
  | nil =>
    intro start reached h
    obtain rfl : start = reached := Option.some_inj.1 h
    exact ⟨List.Subset.refl _, nofun⟩
  | cons d ds ih =>
    intro start reached h
    rw [List.foldlM_cons] at h
    obtain ⟨mid, hmid, h⟩ := Option.bind_eq_some_iff.1 h
    obtain ⟨hsub, hdeps⟩ := ih mid reached h
    split at hmid
    · exact absurd hmid nofun
    · obtain rfl := Option.some_inj.1 hmid
      refine ⟨fun n hn => hsub (List.mem_append_left _ hn), fun e he n hn => ?_⟩
      rcases List.mem_cons.1 he with rfl | he
      · exact hsub (List.mem_append_right _ hn)
      · exact hdeps e he hn

namespace Compiler

variable {library : Library} {pool before : List Compiled} {c : Compiled} {f : FileDescriptor}

/-- What a file sees it reaches when it is linked. -/
theorem Adds.mem_reached_of_sees (hadds : Adds library before c f) (hbuilt : Built library before)
    (hname : f.name = c.name) {reached : List String}
    (hreached : f.reachedAfter? (before.map (·.linked)) = some reached) {b : String}
    (hsees : library.Sees c.name b) : b ∈ reached := by
  obtain ⟨hself, hdeps⟩ := FileDescriptor.mem_of_reachedAfter? hreached
  rcases hsees with rfl | ⟨n, ⟨path, g, hfound, hn⟩, hpasses⟩
  · rwa [← hname]
  · obtain rfl := hadds.eq_of_found hfound
    obtain ⟨e, he, hename⟩ := done_iff.1 (hadds.imports n hn)
    obtain ⟨d, hd, rfl⟩ := List.mem_map.1 hn
    refine hdeps d hd ?_
    rw [← hename, hbuilt.exportsAfter_eq he]
    exact Built.mem_exports hpasses hbuilt e he hename

/-- What a file sees is the file itself, or it has been linked before. -/
theorem Adds.done_of_sees (hadds : Adds library before c f) (hbuilt : Built library before)
    {b : String} (hsees : library.Sees c.name b) : b = c.name ∨ done before b = true := by
  rcases hsees with rfl | ⟨n, ⟨path, g, hfound, hn⟩, hpasses⟩
  · exact Or.inl rfl
  · obtain rfl := hadds.eq_of_found hfound
    exact Or.inr (hbuilt.done_of_reaches (hadds.imports n hn) (Library.reaches_of_passesOn hpasses))

/-! ## What names are known to mean -/

/-- What the names in a file of a pool are known to mean: the types of the file itself, and whatever
the files declare that it sees. -/
structure Understands (library : Library) (pool : List Compiled) (c : Compiled) (f : FileDescriptor)
    (names : Names) : Prop where
  resolves : f.Resolves names c.linked.file
  owns : names.Owns f
  types : ∀ s ∈ names.symbols, s.isType = true →
    s.name ∈ (pool.map (·.linked.file)).flatMap FileDescriptor.typeNames
  knows : ∀ b path g, library.Sees c.name b → library b = .found path g →
    (∀ n ∈ g.declaredTypes, names.Knows Symbol.isType n) ∧
      ∀ p ∈ g.placed, names.Knows Symbol.isMessage (nameIn g.package p.name)

/-- The types of a file are known when it is linked, and there is nothing else of their names. -/
theorem Adds.owns (hadds : Adds library before c f) {reached : List String}
    (hself : f.name ∈ reached) :
    Names.Owns ⟨f.symbols ++ (before.map (·.linked)).flatMap (·.symbols), reached⟩ f := by
  intro s hs htype
  have hpackage := Symbol.isPackage_of_isType htype
  have hsome : (Names.symbol? ⟨f.symbols ++ (before.map (·.linked)).flatMap (·.symbols), reached⟩
      Symbol.isType s.name).isSome = true := by
    unfold Names.symbol?
    rw [List.find?_isSome]
    refine ⟨s, List.mem_append_left _ hs, ?_⟩
    rw [FileDescriptor.file_of_mem_symbols hs, htype, List.contains_iff_mem.2 hself]
    simp
  obtain ⟨t, ht⟩ := Option.isSome_iff_exists.1 hsome
  obtain ⟨hmem, hname, -, -⟩ := Names.mem_of_symbol? ht
  rcases List.mem_append.1 hmem with hown | hknown
  · have heq : t = s := (hadds.links.apart.eq_of_name_eq hs hown hname.symm hpackage).symm
    rwa [heq] at ht
  · have hclash := hadds.links.fresh s hs t hknown
    unfold Symbol.clashes at hclash
    rw [hname, hpackage] at hclash
    simp at hclash

/-- What a file declares is known under its full name where the symbols of the file are. -/
theorem knows_of_symbols {names : Names} {g : FileDescriptor} (hreadable : g.isReadable = true)
    (hreached : g.name ∈ names.reached)
    (hsymbols : ∀ s ∈ g.symbols, ∃ t ∈ names.symbols, s.Alike t) :
    (∀ n ∈ g.declaredTypes, names.Knows Symbol.isType n) ∧
      ∀ p ∈ g.placed, names.Knows Symbol.isMessage (nameIn g.package p.name) := by
  have hfound : ∀ (admitted : Symbol → Bool), ∀ s ∈ g.symbols,
      (∀ t, s.Alike t → admitted t = true) → ∃ t, names.symbol? admitted s.name = some t := by
    intro admitted s hs hadm
    obtain ⟨t, ht, halike⟩ := hsymbols s hs
    refine Option.isSome_iff_exists.1 (List.find?_isSome.2 ⟨t, ht, ?_⟩)
    rw [← halike.name, ← halike.file, FileDescriptor.file_of_mem_symbols hs, hadm t halike,
      List.contains_iff_mem.2 hreached]
    simp
  have htaken : ∀ n ∈ g.declaredTypes, ∀ a ∈ scopes n, a ≠ "" → names.isTaken a = true := by
    intro n hn a ha hne
    obtain ⟨s, hs, rfl, -⟩ := FileDescriptor.exists_symbol_of_mem_scopes hreadable hn ha hne
    obtain ⟨t, ht, halike⟩ := hsymbols s hs
    exact List.any_eq_true.2 ⟨t, ht, beq_iff_eq.2 halike.name.symm⟩
  refine ⟨fun n hn => ⟨?_, htaken n hn⟩, fun p hp => ⟨?_, htaken _ ?_⟩⟩
  · obtain ⟨s, hs, htype, rfl⟩ := FileDescriptor.mem_typeNames_iff.1
      (FileDescriptor.declaredTypes_subset_typeNames hreadable hn)
    exact hfound _ s hs fun t halike => halike.isType ▸ htype
  · obtain ⟨s, hs, hname, hmessage⟩ := FileDescriptor.exists_message_of_mem_placed hreadable hp
    rw [← hname]
    exact hfound _ s hs fun t halike => halike.isMessage ▸ hmessage
  · exact List.mem_append_left _ (List.mem_flatMap.2 ⟨p, hp, List.mem_cons_self⟩)

/-- In every file of a pool this much is known of names. -/
theorem Built.understands (h : Built library pool) (hnamed : library.Named)
    (hreadable : ∀ name path f, library name = .found path f → f.isReadable = true)
    {c : Compiled} (hc : c ∈ pool) :
    ∃ f names, library c.name = .found c.path f ∧ Understands library pool c f names := by
  obtain ⟨before, f, hbefore, hadds⟩ := h.adds_of_mem hc
  obtain ⟨reached, hreached, hresolves⟩ := hadds.links.resolves
  have hbuilt := h.of_prefix hbefore
  have hname : f.name = c.name := hnamed hadds.found
  obtain ⟨hself, -⟩ := FileDescriptor.mem_of_reachedAfter? hreached
  refine ⟨f, _, hadds.found, hresolves, hadds.owns hself, fun s hs htype => ?_,
    fun b path g hsees hfound => ?_⟩
  · obtain ⟨s', hs', halike⟩ := hadds.exists_alike hbefore hc hresolves hs
    rw [h.types_eq, halike.name]
    exact List.mem_map_of_mem (List.mem_filter.2 ⟨hs', halike.isType ▸ htype⟩)
  · refine knows_of_symbols (hreadable b path g hfound) ?_ fun s hs => ?_
    · rw [hnamed hfound]
      exact hadds.mem_reached_of_sees hbuilt hname hreached hsees
    · rcases hadds.done_of_sees hbuilt hsees with rfl | hdone
      · obtain rfl := hadds.eq_of_found hfound
        exact ⟨s, List.mem_append_left _ hs, Symbol.Alike.refl s⟩
      · obtain ⟨e, he, rfl⟩ := done_iff.1 hdone
        obtain ⟨t, ht, halike⟩ := hbuilt.exists_alike he hfound hs
        rw [List.flatMap_map]
        exact ⟨t, List.mem_append_right _ (List.mem_flatMap_of_mem he ht), halike⟩

end Compiler

end SchemaPage
