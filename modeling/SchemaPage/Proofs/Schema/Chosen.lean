import SchemaPage.Proofs.Schema.Matched

/-!
# The declaration that a name is taken for

The compiler takes a type name for a type that the file sees, and writes down its full name.  Where
names stay as they are written, the search through the scopes takes them for any declaration of the
graph.  Both go through the scopes from the innermost on.  So they agree as soon as what the search
finds is something that the compiler could have taken the name for: then each of them accepts what
the other has found.

* `Graph.Corresponds`: graphs that have corresponding declarations under each name.
* `Names.Settles`: the types that are known in a file are declared in the graph.
* `Graph.find?_eq_lookup_of_resolve?`: the search finds what the compiler has chosen.
* `Reference.ofType_eq_of_means`: a type name is shown in one way, as it is written and as it is
  linked.
-/

namespace SchemaPage

open Proto

/-! ## Names that are looked up -/

/-- Under each name the graphs have declarations that match, or none. -/
def Graph.Corresponds (g g' : Graph) : Prop :=
  ∀ n, (g.lookup n = none ∧ g'.lookup n = none) ∨
    ∃ e e', g.lookup n = some e ∧ g'.lookup n = some e' ∧ e.Matches e'

/-- Graphs of files that correspond have corresponding declarations under each name. -/
theorem Graph.corresponds_ofFiles {S : Declaration → Declaration → Prop}
    (hS : ∀ d d', S d d' → d.Matches d') {files files' : List SchemaFile}
    (h : List.Forall₂ (SchemaFile.Matches S) (ofFiles files).files (ofFiles files').files) :
    (ofFiles files).Corresponds (ofFiles files') := by
  intro n
  have hall : List.Forall₂ S (ofFiles files).allDeclarations (ofFiles files').allDeclarations :=
    List.rel_flatMap h fun _ _ hfile => hfile.allDeclarations
  rw [lookup_ofFiles, lookup_ofFiles]
  rcases Outcome.find?_cases_of_forall₂ (List.forall₂_reverse_iff.2 hall)
      (p := (·.fullName == n)) (q := (·.fullName == n))
      fun d d' hd => by rw [(hS d d' hd).fullName] with
    hnone | ⟨d, d', hd, hd', hdd'⟩
  · exact Or.inl hnone
  · exact Or.inr ⟨d, d', hd, hd', hS d d' hdd'⟩

/-! ## Scopes -/

/-- A scope is among the scopes around the names in it. -/
theorem mem_scopes_of_nameIn {scope : String} (hscope : scope ≠ "") (name : String) :
    scope ∈ scopes (nameIn scope name) := by
  refine mem_scopes_iff.2 (Or.inr (Or.inl ?_))
  rw [nameIn_of_ne hscope, toList_append_dot, dotPrefixes_append]
  exact List.mem_append_right _ List.mem_cons_self

/-- A search from a name in a scope ends at the name, or as it does from the scope. -/
theorem find?_scopes_nameIn {test : String → Bool} {scope name a : String}
    (hname : isWord name = true) (h : (scopes (nameIn scope name)).find? test = some a) :
    a = nameIn scope name ∨ (scopes scope).find? test = some a := by
  by_cases hscope : scope = ""
  · have hdots : dotPrefixes name.toList = [] :=
      dotPrefixes_of_forall_ne fun c hc => ne_dot_of_isWordChar ((isWord_iff.1 hname).2 c hc)
    rw [hscope, nameIn_empty] at h ⊢
    unfold scopes at h ⊢
    rw [hdots] at h
    cases hfirst : test name <;> cases hroot : test "" <;> simp_all [dotPrefixes]
  · rw [scopes_nameIn hscope hname, List.find?_cons] at h
    split at h
    · exact Or.inl (Option.some_inj.1 h).symm
    · exact Or.inr h

namespace Proto

/-- The types that are known in a file are declared in a graph, unless they are among the hidden
ones; and none of those is declared inside a type that is folded back. -/
structure Names.Settles (names : Names) (folded hidden : List String) (g : Graph) : Prop where
  declared : ∀ s ∈ names.symbols, s.isType = true → s.written ∉ hidden →
    (g.lookup s.name).isSome = true
  outside : ∀ scope ∈ folded, ∀ s ∈ names.symbols, s.isType = true → s.written ∉ hidden →
    ∀ x, s.name ≠ nameIn scope x

end Proto

/-- The search through the scopes around a declaration finds what the compiler has chosen there, or
in the scope of something inside it that declares nothing, when the compiler knows what the search
finds. -/
theorem Graph.find?_eq_lookup_of_resolve? {names : Names} {admitted : Symbol → Bool} {g : Graph}
    (hsound : ∀ n e, g.lookup n = some e → e.fullName = n) {d : Declaration} {scope w : String}
    {s : Symbol}
    (hplace : scope = d.fullName ∨ ∃ entry, isWord entry = true ∧ scope = nameIn d.fullName entry ∧
      ∀ x, s.name ≠ nameIn scope x)
    (hw : isWrittenType w = true) (hmeans : names.resolve? admitted scope w = some s)
    (hdeclared : (g.lookup s.name).isSome = true)
    (hknows : ∀ e, g.find? d w = some e → names.Knows admitted e.fullName) :
    g.find? d w = g.lookup s.name := by
  rcases Names.resolve?_cases hw hmeans with habsolute | ⟨hrelative, test, a, ha, hname, htest⟩
  · unfold find?
    rw [habsolute]
  · have ha : (scopes d.fullName).find? test = some a := by
      rcases hplace with rfl | ⟨entry, hentry, rfl, houtside⟩
      · exact ha
      · rcases find?_scopes_nameIn hentry ha with rfl | ha
        · exact absurd hname (houtside w)
        · exact ha
    have hfind : g.find? d w = (scopes d.fullName).findSome? fun b => g.lookup (nameIn b w) := by
      unfold find? lookupFrom
      rw [hrelative]
    obtain ⟨e, he⟩ : ∃ e, g.find? d w = some e := by
      rw [← Option.isSome_iff_exists, hfind, List.findSome?_isSome_iff]
      exact ⟨a, List.mem_of_find?_eq_some ha, hname ▸ hdeclared⟩
    obtain ⟨b, hb, hlookup⟩ := Outcome.find?_of_findSome? (hfind.symm.trans he)
    -- the compiler accepts the scope of the search, and the search the scope of the compiler
    have hab : a = b := by
      refine Outcome.find?_eq_of_find? ha hb (htest b ?_) (hname ▸ hdeclared)
      rw [← hsound _ e hlookup]
      exact hknows e he
    rw [he, hname, hab, hlookup]

/-! ## References -/

theorem Graph.resolve_of_find? {g : Graph} {d : Declaration} {w : String}
    (hkeyword : Scalar.ofKeyword? w = none) (hw : isTypeName w = true) {e : Declaration}
    (h : g.find? d w = some e) : g.resolve d w = .ok (some (.declared e)) := by
  unfold resolve
  rw [hkeyword, if_pos hw, h]

/-- A full name that is written down stands for what is found under it. -/
theorem Graph.resolve_written {g : Graph} {d e : Declaration} {n : String} (hn : isDotted n = true)
    (h : g.lookup n = some e) : g.resolve d ("." ++ n) = .ok (some (.declared e)) := by
  have hkeyword : Scalar.ofKeyword? ("." ++ n) = none := ofKeyword?_append_dot "" n
  refine resolve_of_find? hkeyword (isTypeName_absolute hn) ?_
  unfold find?
  rw [absolute?_dot]
  exact h

/-- What the compiler could take a type name for that is written inside `d`: a scalar, unless `d` is
a service, or a type that it knows, and only a message in a service. -/
def Proto.Names.Admits (names : Names) (d : Declaration) : ResolvedType → Prop
  | .scalar _ => d.kind ≠ .service
  | .declared e => names.Knows Symbol.isType e.fullName ∧
      (d.kind = .service → names.Knows Symbol.isMessage e.fullName)

section Shown

variable {names : Names} {folded hidden : List String} {g g' : Graph} {d d' : Declaration}
  {w : String}
  (hcorresponds : g.Corresponds g') (hsound : ∀ n e, g.lookup n = some e → e.fullName = n)
  (hsettles : names.Settles folded hidden g) (hd : d.Matches d')
  (hdotted : ∀ s ∈ names.symbols, s.isType = true → isDotted s.name = true)

include hcorresponds hsound hsettles hd hdotted

/-- A type name that the compiler has taken for a type is shown like the full name of the type, when
the compiler knows what the search finds under it. -/
theorem Reference.ofType_eq_of_resolve? {admitted : Symbol → Bool} {scope : String} {s : Symbol}
    (hs : s ∈ names.symbols) (htype : s.isType = true) (hhidden : s.written ∉ hidden)
    (hwritten : isWrittenType w = true) (hkeyword : Scalar.ofKeyword? w = none)
    (hchosen : names.resolve? admitted scope w = some s)
    (hplace : scope = d.fullName ∨
      ∃ entry, isWord entry = true ∧ scope = nameIn d.fullName entry ∧ scope ∈ folded)
    (hknows : ∀ e, g.resolve d w = .ok (some (.declared e)) → names.Knows admitted e.fullName) :
    ofType g d w = ofType g' d' s.written := by
  have hsome := hsettles.declared s hs htype hhidden
  have hfind : g.find? d w = g.lookup s.name := by
    refine Graph.find?_eq_lookup_of_resolve? hsound ?_ hwritten hchosen hsome fun e he =>
      hknows e (Graph.resolve_of_find? hkeyword (isTypeName_of_isWrittenType hwritten) he)
    refine hplace.imp id fun ⟨entry, hentry, hscope, hfolded⟩ => ⟨entry, hentry, hscope, ?_⟩
    exact hsettles.outside scope hfolded s hs htype hhidden
  rcases hcorresponds s.name with ⟨hnone, -⟩ | ⟨e, e', he, he', hee'⟩
  · rw [hnone] at hsome
    exact absurd hsome Bool.false_ne_true
  · have hleft := Graph.resolve_of_find? hkeyword (isTypeName_of_isWrittenType hwritten)
      (hfind.trans he)
    have hright : g'.resolve d' s.written = .ok (some (.declared e')) :=
      Graph.resolve_written (hdotted s hs htype) he'
    unfold ofType
    rw [hleft, hright]
    exact congrArg Except.ok (ofDeclaration_eq hd hee')

/-- A type name is shown in one way, as it is written in one graph and as it is linked in the other,
when it is taken for something in the one graph that the compiler could take it for. -/
theorem Reference.ofType_eq_of_means {w' : String} (hmeans : names.Means folded d w w')
    (hhidden : w' ∉ hidden) (hadmits : ∀ r, g.resolve d w = .ok (some r) → names.Admits d r) :
    ofType g d w = ofType g' d' w' := by
  cases hmeans with
  | scalar s =>
    unfold ofType Graph.resolve
    rw [Scalar.ofKeyword?_keyword]
    rfl
  | type place written keyword means =>
    obtain ⟨hmem, -, htype⟩ := Names.mem_of_resolve? means
    exact ofType_eq_of_resolve? hcorresponds hsound hsettles hd hdotted hmem htype hhidden written
      keyword
      means place fun e he => (hadmits _ he).1
  | method service written means =>
    obtain ⟨hmem, -, hmessage⟩ := Names.mem_of_resolve? means
    have hkeyword : Scalar.ofKeyword? w = none := by
      cases hscalar : Scalar.ofKeyword? w with
      | none => rfl
      | some scalar =>
        have hresolve : g.resolve d w = .ok (some (.scalar scalar)) := by
          unfold Graph.resolve
          rw [hscalar]
        exact absurd service (hadmits _ hresolve)
    exact ofType_eq_of_resolve? hcorresponds hsound hsettles hd hdotted hmem
      (Symbol.isType_of_isMessage hmessage) hhidden written hkeyword means (Or.inl rfl)
      fun e he => (hadmits _ he).2 service

end Shown

end SchemaPage
