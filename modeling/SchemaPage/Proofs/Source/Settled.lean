import SchemaPage.Proofs.Source.Pool

/-!
# Files that are linked together

In a pool of compiled files every type that is written down is a scalar or the full name of a type
of one of the files, and no two of these types have one name.

* `FileDescriptor.Resolves.written`: what a linked file writes down.
* `Settled`: files in which types have that meaning.
* `Compiler.Built.settled`: the files of a pool.
-/

namespace SchemaPage

open Proto

namespace Proto

theorem MethodDescriptor.Resolves.written {names : Names} {scope : String}
    {m m' : MethodDescriptor} (h : m.Resolves names scope m') :
    ∀ w ∈ [m'.input, m'.output], ∃ s ∈ names.symbols, s.isType = true ∧ w = s.written := by
  have hmean : ∀ {name : String} {s : Symbol}, names.resolve? Symbol.isMessage scope name = some s →
      s ∈ names.symbols ∧ s.isType = true := by
    intro name s hs
    obtain ⟨hmem, -, hmessage⟩ := Names.mem_of_resolve? hs
    exact ⟨hmem, Symbol.isType_of_isMessage hmessage⟩
  obtain ⟨input, hinput, hinput'⟩ := h.input
  obtain ⟨output, houtput, houtput'⟩ := h.output
  intro w hw
  rcases List.mem_cons.1 hw with rfl | hw
  · exact ⟨input, (hmean hinput).1, (hmean hinput).2, hinput'⟩
  · obtain rfl := List.mem_singleton.1 hw
    exact ⟨output, (hmean houtput).1, (hmean houtput).2, houtput'⟩

/-- A linked field has a scalar, or the full name of a type that is known. -/
theorem FieldDescriptor.written_of_resolve? {names : Names} {scope : String}
    {f f' : FieldDescriptor} (hf : f.isReadable = true) (h : f.resolve? names scope = some f') :
    (∃ s : Scalar, f'.writtenType = s.keyword) ∨
      ∃ s ∈ names.symbols, s.isType = true ∧ f'.writtenType = s.written := by
  rcases resolve?_cases h with ⟨hempty, rfl⟩ | ⟨-, s, hs, rfl⟩
  · rcases writtenType_of_isReadable hf with ⟨-, s, -, hs⟩ | ⟨hwritten, -⟩
    · exact Or.inl ⟨s, hs⟩
    · exact absurd hempty (ne_empty_of_isWrittenType hwritten)
  · obtain ⟨hmem, -, htype⟩ := Names.mem_of_resolve? hs
    refine Or.inr ⟨s, hmem, htype, ?_⟩
    unfold writtenType kindOf
    rw [Option.getD_some]
    by_cases hmessage : s.isMessage = true
    · by_cases hgroup : f.kind = some .group
      · simp [hmessage, hgroup]
      · simp [hmessage, hgroup]
    · simp [hmessage]

namespace FileDescriptor

variable {names : Names} {f f' : FileDescriptor}

/-- Inside a linked file stand the messages that stood inside the file. -/
theorem Resolves.allMessages (h : f.Resolves names f') :
    List.Forall₂ (fun n n' => ∃ scope, n.Resolves names f.dialect scope n') f.allMessages
      f'.allMessages := by
  unfold FileDescriptor.allMessages
  rw [← withinAll_eq, ← withinAll_eq]
  exact resolves_withinAll names f.dialect _ _ f.package h.messages

/-- A linked file writes down scalars and full names of types that are known. -/
theorem Resolves.written (h : f.Resolves names f') (hf : f.isReadable = true) {w : String}
    (hw : w ∈ f'.writtenTypes) :
    (∃ s : Scalar, w = s.keyword) ∨ ∃ s ∈ names.symbols, s.isType = true ∧ w = s.written := by
  obtain ⟨-, hmessages, -, -⟩ := isReadable_iff.1 hf
  rcases List.mem_append.1 hw with hw | hw
  · obtain ⟨m', hm', hw⟩ := List.mem_flatMap.1 hw
    obtain ⟨x', hx', rfl⟩ := List.mem_map.1 hw
    obtain ⟨m, hm, scope, hresolves⟩ := Outcome.exists_left_of_forall₂ h.allMessages hm'
    obtain ⟨x, hx, hfield⟩ := Outcome.exists_left_of_forall₂ hresolves.fields hx'
    exact FieldDescriptor.written_of_resolve?
      ((MessageDescriptor.isReadable_iff.1 (hmessages m hm)).2.1 x hx) hfield
  · obtain ⟨s', hs', hw⟩ := List.mem_flatMap.1 hw
    obtain ⟨m', hm', hw⟩ := List.mem_flatMap.1 hw
    obtain ⟨s, -, hservice⟩ := Outcome.exists_left_of_forall₂ h.services hs'
    obtain ⟨m, -, hmethod⟩ := Outcome.exists_left_of_forall₂ hservice.methods hm'
    exact Or.inr (hmethod.written w hw)

/-- A linked file has types of the names that the file had. -/
theorem Resolves.typeNames_eq (h : f.Resolves names f') : f'.typeNames = f.typeNames := by
  rw [← types_of_symbols, ← types_of_symbols]
  have halike := alike_of_resolves h
  generalize f.symbols = l at halike ⊢
  generalize f'.symbols = l' at halike ⊢
  induction halike with
  | nil => rfl
  | @cons s s' l l' hs _ ih =>
    rw [List.filter_cons, List.filter_cons, ← hs.isType]
    split
    · rw [List.map_cons, List.map_cons, ih, hs.name]
    · exact ih

end FileDescriptor

/-- In files that are linked together every type that is written down has a meaning. -/
structure Settled (files : List FileDescriptor) : Prop where
  distinct : (files.map (·.name)).Nodup
  types : (files.flatMap FileDescriptor.typeNames).Nodup
  services : ∀ f ∈ files, ∀ s ∈ f.services,
    nameIn f.package s.name ∉ files.flatMap FileDescriptor.typeNames
  named : ∀ f ∈ files, ∀ m ∈ f.allMessages, m.name ≠ ""
  dotted : ∀ n ∈ files.flatMap FileDescriptor.typeNames, isDotted n = true
  written : ∀ f ∈ files, ∀ w ∈ f.writtenTypes, (∃ s : Scalar, w = s.keyword) ∨
    ∃ n ∈ files.flatMap FileDescriptor.typeNames, w = "." ++ n

end Proto

namespace Compiler

variable {library : Library} {pool : List Compiled}

/-- What is known of symbols when a file is linked is known of the symbols of the pool. -/
theorem Adds.exists_alike {before : List Compiled} {c : Compiled} {f : FileDescriptor}
    (hadds : Adds library before c f) (hbefore : before <+: pool) (hc : c ∈ pool) {names : Names}
    (hresolves : f.Resolves names c.linked.file) {s : Symbol}
    (hs : s ∈ f.symbols ++ (before.map (·.linked)).flatMap (·.symbols)) :
    ∃ s' ∈ pool.flatMap (·.linked.symbols), s.Alike s' := by
  rcases List.mem_append.1 hs with hs | hs
  · obtain ⟨s', hs', halike⟩ :=
      Outcome.exists_right_of_forall₂ (FileDescriptor.alike_of_resolves hresolves) hs
    rw [← hadds.links.symbols] at hs'
    exact ⟨s', List.mem_flatMap_of_mem hc hs', halike⟩
  · rw [List.flatMap_map] at hs
    obtain ⟨d, hd, hs⟩ := List.mem_flatMap.1 hs
    exact ⟨s, List.mem_flatMap_of_mem (hbefore.subset hd) hs, Symbol.Alike.refl s⟩

/-- A file of a pool is a file that is found, with what is known of its types. -/
theorem Built.resolves_of_mem (h : Built library pool) {c : Compiled} (hc : c ∈ pool) :
    ∃ f names, library c.name = .found c.path f ∧ f.Resolves names c.linked.file ∧
      ∀ s ∈ names.symbols, ∃ s' ∈ pool.flatMap (·.linked.symbols), s.Alike s' := by
  obtain ⟨before, f, hbefore, hadds⟩ := h.adds_of_mem hc
  obtain ⟨reached, -, hresolves⟩ := hadds.links.resolves
  exact ⟨f, _, hadds.found, hresolves, fun s hs => hadds.exists_alike hbefore hc hresolves hs⟩

/-- What is found under the name of a file of a pool is what the pool has linked. -/
theorem Built.resolves_of_found (h : Built library pool) {c : Compiled} (hc : c ∈ pool)
    {path : Option String} {f : FileDescriptor} (hfound : library c.name = .found path f) :
    ∃ names, f.Resolves names c.linked.file := by
  obtain ⟨before, g, -, hadds⟩ := h.adds_of_mem hc
  obtain rfl := hadds.eq_of_found hfound
  obtain ⟨reached, -, hresolves⟩ := hadds.links.resolves
  exact ⟨_, hresolves⟩

/-- The symbols of a pool are those of its files. -/
theorem Built.symbols_of_mem (h : Built library pool) {c : Compiled} (hc : c ∈ pool) :
    c.linked.symbols = c.linked.file.symbols := by
  obtain ⟨before, f, -, hadds⟩ := h.adds_of_mem hc
  exact hadds.links.symbols

/-- What is declared in a file is declared in what the pool has linked. -/
theorem Built.exists_alike (h : Built library pool) {c : Compiled} (hc : c ∈ pool)
    {path : Option String} {f : FileDescriptor} (hfound : library c.name = .found path f)
    {s : Symbol} (hs : s ∈ f.symbols) : ∃ t ∈ c.linked.symbols, s.Alike t := by
  obtain ⟨names, hresolves⟩ := h.resolves_of_found hc hfound
  rw [h.symbols_of_mem hc]
  exact Outcome.exists_right_of_forall₂ (FileDescriptor.alike_of_resolves hresolves) hs

/-- The types of a pool are those of its symbols that are types. -/
theorem Built.types_eq (h : Built library pool) :
    (pool.map (·.linked.file)).flatMap FileDescriptor.typeNames =
      ((pool.flatMap (·.linked.symbols)).filter Symbol.isType).map Symbol.name := by
  rw [List.flatMap_map, List.filter_flatMap, List.map_flatMap]
  refine List.flatMap_congr fun c hc => ?_
  rw [← FileDescriptor.types_of_symbols, h.symbols_of_mem hc]

/-- The files of a pool are linked together. -/
theorem Built.settled (h : Built library pool)
    (hreadable : ∀ name path f, library name = .found path f → f.isReadable = true) :
    Settled (pool.map (·.linked.file)) where
  distinct := by
    rw [List.map_map]
    exact h.nodup_names
  types := by
    rw [h.types_eq]
    exact h.apart.nodup_types
  services := fun f hf s hs hn => by
    -- a type of that name would be the very symbol of the service, and that one is no type
    obtain ⟨c, hc, rfl⟩ := List.mem_map.1 hf
    obtain ⟨t, ht, hname, hnotType, hpackage⟩ := FileDescriptor.exists_symbol_of_service hs
    rw [← h.symbols_of_mem hc] at ht
    rw [h.types_eq] at hn
    obtain ⟨u, hu, huname⟩ := List.mem_map.1 hn
    obtain ⟨hu, hutype⟩ := List.mem_filter.1 hu
    have heq := h.apart.eq_of_name_eq (List.mem_flatMap_of_mem hc ht) hu (hname.trans huname.symm)
      hpackage
    rw [heq, hutype] at hnotType
    exact Bool.noConfusion hnotType
  named := fun f hf m hm => by
    obtain ⟨c, hc, rfl⟩ := List.mem_map.1 hf
    obtain ⟨g, names, hfound, hresolves, -⟩ := h.resolves_of_mem hc
    obtain ⟨m₀, hm₀, scope, hm⟩ := Outcome.exists_left_of_forall₂ hresolves.allMessages hm
    obtain ⟨-, hmessages, -, -⟩ := FileDescriptor.isReadable_iff.1 (hreadable _ _ _ hfound)
    rw [hm.name]
    exact (isWord_iff.1 (MessageDescriptor.isReadable_iff.1 (hmessages m₀ hm₀)).1).1
  dotted := fun n hn => by
    obtain ⟨f, hf, hn⟩ := List.mem_flatMap.1 hn
    obtain ⟨c, hc, rfl⟩ := List.mem_map.1 hf
    obtain ⟨g, names, hfound, hresolves, -⟩ := h.resolves_of_mem hc
    rw [hresolves.typeNames_eq] at hn
    exact FileDescriptor.isDotted_of_mem_typeNames (hreadable _ _ _ hfound) hn
  written := fun f hf w hw => by
    obtain ⟨c, hc, rfl⟩ := List.mem_map.1 hf
    obtain ⟨g, names, hfound, hresolves, hsymbols⟩ := h.resolves_of_mem hc
    rcases hresolves.written (hreadable _ _ _ hfound) hw with hscalar | ⟨s, hs, hstype, rfl⟩
    · exact Or.inl hscalar
    · obtain ⟨s', hs', halike⟩ := hsymbols s hs
      have htype : s'.name ∈ (pool.map (·.linked.file)).flatMap FileDescriptor.typeNames := by
        rw [h.types_eq]
        exact List.mem_map_of_mem (List.mem_filter.2 ⟨hs', halike.isType ▸ hstype⟩)
      refine Or.inr ⟨s'.name, htype, ?_⟩
      rw [← halike.name]
      rfl

end Compiler

end SchemaPage
