import SchemaPage.Proofs.Page.Names
import SchemaPage.Proofs.Schema.Linked
import SchemaPage.Proofs.Text.Split

/-!
# The innermost scope

A type name that is no full name is looked up in one scope after the other, and what is found first
is what the name means.  That this is the declaration in the innermost scope is a matter of the
order in which the scopes are tried: all of them are stretches at the start of one full name, so the
inner one of two scopes is the longer one, and each step goes from a scope to the longest one that
is shorter.

* `IsScope`: the scopes around a full name, whatever the order in which they are tried.
* `outerScope`, `outerScope_cases`, `Graph.lookupFrom_eq`: one step of the search.
* `IsTypePath`: names with dots between them.
* `Graph.Means`, `Graph.Misses`: when a search finds a declaration, and when it finds none.
* `Graph.StandsFor`: what a type name stands for.
* `Graph.resolve_iff_standsFor`: this is what it is resolved to.
-/

namespace SchemaPage

open Proto

/-! ## Scopes -/

/-- The text is a scope around a full name: the name itself, what stands before one of its dots, or
the root. -/
def IsScope (full scope : String) : Prop :=
  scope = full ∨ (∃ rest, full = scope ++ "." ++ rest) ∨ scope = ""

theorem mem_dotPrefixes_iff {p cs : List Char} : p ∈ dotPrefixes cs ↔ ∃ r, cs = p ++ '.' :: r := by
  constructor
  · intro h
    induction cs generalizing p with
    | nil => exact absurd h List.not_mem_nil
    | cons c cs ih =>
      unfold dotPrefixes at h
      rcases List.mem_append.1 h with h | h
      · split at h
        · rename_i hc
          obtain rfl := List.mem_singleton.1 h
          exact ⟨cs, by rw [hc, List.nil_append]⟩
        · exact absurd h List.not_mem_nil
      · obtain ⟨q, hq, rfl⟩ := List.mem_map.1 h
        obtain ⟨r, rfl⟩ := ih hq
        exact ⟨r, rfl⟩
  · rintro ⟨r, rfl⟩
    rw [dotPrefixes_append]
    exact List.mem_append_right _ List.mem_cons_self

theorem mem_scopes_iff_isScope {full scope : String} :
    scope ∈ scopes full ↔ IsScope full scope := by
  rw [mem_scopes_iff, mem_dotPrefixes_iff]
  refine or_congr_right (or_congr_left ⟨?_, ?_⟩)
  · rintro ⟨r, hr⟩
    refine ⟨String.ofList r, String.toList_inj.1 ?_⟩
    rw [toList_append_dot, hr, String.toList_ofList]
  · rintro ⟨rest, rfl⟩
    exact ⟨rest.toList, toList_append_dot scope rest⟩

/-- Scopes around one name are told apart by their lengths. -/
theorem IsScope.eq_of_length {full s t : String} (hs : IsScope full s) (ht : IsScope full t)
    (h : s.length = t.length) : s = t := by
  have hstart : ∀ {u : String}, IsScope full u → u.toList <+: full.toList := by
    rintro u (rfl | ⟨rest, rfl⟩ | rfl)
    · exact List.prefix_rfl
    · rw [toList_append_dot]
      exact List.prefix_append _ _
    · exact List.nil_prefix
  have hlength : s.toList.length = t.toList.length := by
    rw [String.length_toList, String.length_toList, h]
  have hboth := List.prefix_of_prefix_length_le (hstart hs) (hstart ht) hlength.le
  exact String.toList_inj.1 (hboth.eq_of_length hlength)

/-- Shorter stretches come first. -/
theorem length_lt_dotPrefixes (cs : List Char) :
    (dotPrefixes cs).Pairwise fun p q => p.length < q.length := by
  induction cs with
  | nil => exact List.Pairwise.nil
  | cons c cs ih =>
    have hlonger : ((dotPrefixes cs).map (c :: ·)).Pairwise fun p q => p.length < q.length :=
      List.pairwise_map.2 (ih.imp fun h => by simpa using h)
    unfold dotPrefixes
    split
    · refine List.pairwise_cons.2 ⟨fun p hp => ?_, hlonger⟩
      obtain ⟨q, -, rfl⟩ := List.mem_map.1 hp
      exact Nat.succ_pos _
    · exact hlonger

/-- Longer scopes come first. -/
theorem length_le_scopes (full : String) :
    (scopes full).Pairwise fun s t => t.length ≤ s.length := by
  have hinner : ∀ s ∈ (dotPrefixes full.toList).reverse.map String.ofList,
      s.length ≤ full.length := by
    intro s hs
    obtain ⟨p, hp, rfl⟩ := List.mem_map.1 hs
    obtain ⟨r, hr⟩ := mem_dotPrefixes_iff.1 (List.mem_reverse.1 hp)
    rw [← String.length_toList, ← String.length_toList, String.toList_ofList, hr,
      List.length_append]
    exact Nat.le_add_right _ _
  unfold scopes
  rw [List.cons_append, List.pairwise_cons, List.pairwise_append]
  refine ⟨fun s hs => ?_, ?_, List.pairwise_singleton _ _, fun s _ t ht => ?_⟩
  · rcases List.mem_append.1 hs with hs | hs
    · exact hinner s hs
    · obtain rfl := List.mem_singleton.1 hs
      exact Nat.zero_le _
  · rw [List.pairwise_map, List.pairwise_reverse]
    refine (length_lt_dotPrefixes _).imp fun h => ?_
    rw [← String.length_toList, ← String.length_toList, String.toList_ofList, String.toList_ofList]
    exact h.le
  · obtain rfl := List.mem_singleton.1 ht
    exact Nat.zero_le _

/-! ## Steps of the search -/

/-- The next scope outward: what stands before the last dot, or the root when there is no dot. -/
def outerScope (scope : String) : String :=
  String.ofList ((scope.toList.reverse.dropWhile (· != '.')).tail.reverse)

/-- A scope with a dot ends in a part without one, and the next scope is what stands before that. -/
theorem eq_outerScope_append {scope : String} (h : '.' ∈ scope.toList) :
    ∃ rest, '.' ∉ rest ∧ scope.toList = (outerScope scope).toList ++ '.' :: rest := by
  have hsplit := List.takeWhile_append_dropWhile (p := (· != '.')) (l := scope.toList.reverse)
  cases hdrop : scope.toList.reverse.dropWhile (· != '.') with
  | nil =>
    rw [hdrop, List.append_nil] at hsplit
    have hdot := List.mem_takeWhile_imp (hsplit.symm ▸ List.mem_reverse.2 h)
    exact absurd hdot (by decide)
  | cons c before =>
    obtain rfl : c = '.' := by
      have hc := List.head_dropWhile_not (p := (· != '.')) (l := scope.toList.reverse)
        (by simp [hdrop])
      simpa [hdrop] using hc
    refine ⟨(scope.toList.reverse.takeWhile (· != '.')).reverse, fun hmem => ?_, ?_⟩
    · have hdot := List.mem_takeWhile_imp (List.mem_reverse.1 hmem)
      exact absurd hdot (by decide)
    · unfold outerScope
      rw [hdrop, List.tail_cons, String.toList_ofList, ← List.reverse_inj, List.reverse_append,
        List.reverse_reverse, List.reverse_cons, List.reverse_reverse, List.append_assoc,
        List.singleton_append, ← hdrop, hsplit]

theorem outerScope_of_not_mem {scope : String} (h : '.' ∉ scope.toList) :
    outerScope scope = "" := by
  have hall : scope.toList.reverse.dropWhile (· != '.') = [] :=
    List.dropWhile_eq_nil_iff.2 fun c hc => bne_iff_ne.2 fun heq => h (heq ▸ List.mem_reverse.1 hc)
  unfold outerScope
  rw [hall]
  rfl

/-- The next scope outward is what stands before the last dot, or the root. -/
theorem outerScope_cases (scope : String) :
    (∃ rest, '.' ∉ rest.toList ∧ scope = outerScope scope ++ "." ++ rest) ∨
      '.' ∉ scope.toList ∧ outerScope scope = "" := by
  by_cases hdot : '.' ∈ scope.toList
  · obtain ⟨rest, hrest, hsplit⟩ := eq_outerScope_append hdot
    refine Or.inl ⟨String.ofList rest, by rwa [String.toList_ofList], String.toList_inj.1 ?_⟩
    rw [toList_append_dot, String.toList_ofList, ← hsplit]
  · exact Or.inr ⟨hdot, outerScope_of_not_mem hdot⟩

/-- Going outward ends, since every scope but the root is longer than the next one. -/
theorem length_outerScope_lt {scope : String} (h : scope ≠ "") :
    (outerScope scope).length < scope.length := by
  by_cases hdot : '.' ∈ scope.toList
  · obtain ⟨rest, -, hsplit⟩ := eq_outerScope_append hdot
    rw [← String.length_toList, ← String.length_toList, hsplit, List.length_append,
      List.length_cons]
    omega
  · rw [outerScope_of_not_mem hdot]
    exact Nat.pos_of_ne_zero fun hlength => h (String.length_eq_zero_iff.1 hlength)

/-- The scopes around a scope are the scope and those around the next one outward. -/
theorem scopes_eq_cons {scope : String} (h : '.' ∈ scope.toList) :
    scopes scope = scope :: scopes (outerScope scope) := by
  obtain ⟨rest, hrest, hsplit⟩ := eq_outerScope_append h
  have hnone : dotPrefixes rest = [] :=
    dotPrefixes_of_forall_ne fun c hc heq => hrest (heq ▸ hc)
  have hdots : dotPrefixes scope.toList =
      dotPrefixes (outerScope scope).toList ++ [(outerScope scope).toList] := by
    rw [hsplit, dotPrefixes_append, hnone, List.map_nil]
  unfold scopes
  rw [hdots, List.reverse_append, List.reverse_singleton, List.singleton_append, List.map_cons,
    String.ofList_toList]
  rfl

namespace Graph

/-- One step of the search: what the scope itself has for the name, or else, unless the scope is the
root, what is found from the next scope outward. -/
theorem lookupFrom_eq (g : Graph) (scope name : String) :
    g.lookupFrom scope name = (g.lookup (nameIn scope name)).or
      (if scope = "" then none else g.lookupFrom (outerScope scope) name) := by
  unfold lookupFrom
  by_cases hdot : '.' ∈ scope.toList
  · have hne : scope ≠ "" := by
      rintro rfl
      exact absurd hdot List.not_mem_nil
    rw [scopes_eq_cons hdot, List.findSome?_cons, if_neg hne]
    cases g.lookup (nameIn scope name) <;> rfl
  · have hdots : dotPrefixes scope.toList = [] :=
      dotPrefixes_of_forall_ne fun c hc heq => hdot (heq ▸ hc)
    -- without a dot the root is the only other scope, and the root itself may be listed twice
    have hscopes : scopes scope = [scope, ""] := by
      unfold scopes
      rw [hdots]
      rfl
    rw [outerScope_of_not_mem hdot, hscopes, show scopes "" = ["", ""] from rfl]
    simp only [List.findSome?_cons, List.findSome?_nil]
    by_cases hroot : scope = ""
    · rw [if_pos hroot, hroot]
      cases g.lookup (nameIn "" name) <;> rfl
    · rw [if_neg hroot]
      cases g.lookup (nameIn scope name) <;> cases g.lookup (nameIn "" name) <;> rfl

/-- No scope that has a declaration is longer than the first one that has one. -/
theorem length_le_of_first {g : Graph} {full name s t : String} {inner outer : List String}
    (hscopes : scopes full = inner ++ s :: outer)
    (hinner : ∀ x ∈ inner, g.lookup (nameIn x name) = none)
    (ht : IsScope full t) (hsome : (g.lookup (nameIn t name)).isSome) : t.length ≤ s.length := by
  have horder := length_le_scopes full
  have hmem := mem_scopes_iff_isScope.2 ht
  rw [hscopes] at hmem horder
  rcases List.mem_append.1 hmem with hmem | hmem
  · rw [hinner t hmem] at hsome
    exact absurd hsome Bool.false_ne_true
  · rcases List.mem_cons.1 hmem with rfl | hmem
    · exact Nat.le_refl _
    · exact (List.pairwise_cons.1 (List.pairwise_append.1 horder).2.1).1 t hmem

/-- The search finds the declaration in the longest scope that has one. -/
theorem lookupFrom_eq_some_iff {g : Graph} {full name : String} {d : Declaration} :
    g.lookupFrom full name = some d ↔ ∃ s, IsScope full s ∧ g.lookup (nameIn s name) = some d ∧
      ∀ t, IsScope full t → (g.lookup (nameIn t name)).isSome → t.length ≤ s.length := by
  have hscope : ∀ {inner s outer}, scopes full = inner ++ s :: outer → IsScope full s := fun h => by
    refine mem_scopes_iff_isScope.1 ?_
    rw [h]
    exact List.mem_append_right _ List.mem_cons_self
  unfold lookupFrom
  rw [List.findSome?_eq_some_iff]
  constructor
  · rintro ⟨inner, s, outer, hscopes, hs, hinner⟩
    exact ⟨s, hscope hscopes, hs, fun t ht hsome => length_le_of_first hscopes hinner ht hsome⟩
  · rintro ⟨s, hs, hd, hlongest⟩
    have hsome : ((scopes full).findSome? fun t => g.lookup (nameIn t name)).isSome :=
      List.findSome?_isSome_iff.2 ⟨s, mem_scopes_iff_isScope.2 hs, by rw [hd]; rfl⟩
    obtain ⟨e, he⟩ := Option.isSome_iff_exists.1 hsome
    obtain ⟨inner, t, outer, hscopes, ht, hinner⟩ := List.findSome?_eq_some_iff.1 he
    -- both are longest, so the scope that is found is this one
    have hle : t.length ≤ s.length := hlongest t (hscope hscopes) (by rw [ht]; rfl)
    have hge : s.length ≤ t.length := length_le_of_first hscopes hinner hs (by rw [hd]; rfl)
    obtain rfl := hs.eq_of_length (hscope hscopes) (Nat.le_antisymm hge hle)
    exact ⟨inner, s, outer, hscopes, hd, hinner⟩

end Graph

/-! ## Names of types -/

/-- The text is one or more names with dots between them, where a name has at least one character
and only letters, digits and underscores. -/
def IsTypePath (text : String) : Prop :=
  ∃ names, names ≠ [] ∧ text = ".".intercalate names ∧
    ∀ name ∈ names, name ≠ "" ∧ ∀ c ∈ name.toList, Text.isAlphanumeric c = true ∨ c = '_'

theorem isTypePath_iff {text : String} :
    IsTypePath text ↔ ((Text.split '.' text).all fun name =>
      name != "" && name.toList.all Text.isNameChar) = true := by
  have hname : ∀ name : String, (name != "" && name.toList.all Text.isNameChar) = true ↔
      name ≠ "" ∧ ∀ c ∈ name.toList, Text.isAlphanumeric c = true ∨ c = '_' := by
    intro name
    simp only [Bool.and_eq_true, bne_iff_ne, List.all_eq_true, Text.isNameChar, Bool.or_eq_true,
      beq_iff_eq, Or.comm]
  simp only [List.all_eq_true, hname]
  constructor
  · rintro ⟨names, hne, rfl, hnames⟩
    have hdot : ∀ name ∈ names, '.' ∉ name.toList := fun name hmem hin =>
      absurd ((hnames name hmem).2 '.' hin) (by decide +kernel)
    have hsplit : Text.split '.' (".".intercalate names) = names :=
      Text.intercalate_injective (c := '.') rfl (fun part hpart hin => ?_) hdot
        (Text.split_ne_nil _ _) hne (Text.intercalate_split rfl _)
    · rwa [hsplit]
    · obtain ⟨chars, hchars, rfl⟩ := List.mem_map.1 hpart
      rw [String.toList_ofList] at hin
      exact absurd (Text.not_of_mem_cut hchars hin) (by decide)
  · intro h
    exact ⟨_, Text.split_ne_nil '.' text, (Text.intercalate_split rfl text).symm, h⟩

/-- A text begins with a dot, or no dot is taken off. -/
theorem absolute?_cases (text : String) :
    (∃ rest, text = "." ++ rest ∧ absolute? text = some rest) ∨
      (∀ rest, text ≠ "." ++ rest) ∧ absolute? text = none := by
  cases h : absolute? text with
  | some rest => exact Or.inl ⟨rest, eq_of_absolute? h, rfl⟩
  | none =>
    refine Or.inr ⟨?_, rfl⟩
    rintro rest rfl
    rw [absolute?_dot] at h
    exact absurd h nofun

/-- The text is well formed as the name of a type: names with dots between them, after one dot or
none. -/
def IsTypeName (text : String) : Prop :=
  ∃ body, (text = body ∨ text = "." ++ body) ∧ IsTypePath body

theorem not_isTypePath_dot (rest : String) : ¬ IsTypePath ("." ++ rest) := by
  rw [isTypePath_iff]
  have hsplit : Text.split '.' ("." ++ rest) = "" :: Text.split '.' rest := by
    unfold Text.split
    rw [String.toList_append]
    exact congrArg (List.map String.ofList) (Text.cut_cons_of_pos (by decide) _)
  rw [hsplit]
  exact Bool.false_ne_true

theorem isTypeName_iff {text : String} : isTypeName text = true ↔ IsTypeName text := by
  unfold isTypeName
  rw [← isTypePath_iff]
  rcases absolute?_cases text with ⟨rest, rfl, h⟩ | ⟨hne, h⟩
  · rw [h, Option.getD_some]
    constructor
    · exact fun hpath => ⟨rest, Or.inr rfl, hpath⟩
    · rintro ⟨body, rfl | heq, hpath⟩
      · exact absurd hpath (not_isTypePath_dot rest)
      · rwa [(String.append_right_inj ".").1 heq]
  · rw [h, Option.getD_none]
    constructor
    · exact fun hpath => ⟨text, Or.inl rfl, hpath⟩
    · rintro ⟨body, rfl | heq, hpath⟩
      · exact hpath
      · exact absurd heq (hne body)

/-! ## What a name stands for -/

namespace Graph

/-- The type name means the declaration: the one that has the rest of it as its full name when it
begins with a dot, and otherwise the one that is found in the longest scope around the context in
which one is found. -/
inductive Means (g : Graph) (context : Declaration) : String → Declaration → Prop where
  | absolute {name : String} {d : Declaration} (found : g.lookup name = some d) :
    Means g context ("." ++ name) d
  | relative {name scope : String} {d : Declaration} (hrelative : ∀ rest, name ≠ "." ++ rest)
    (around : IsScope context.fullName scope) (found : g.lookup (nameIn scope name) = some d)
    (longest : ∀ s, IsScope context.fullName s → (g.lookup (nameIn s name)).isSome →
      s.length ≤ scope.length) : Means g context name d

/-- No search for the type name finds a declaration. -/
inductive Misses (g : Graph) (context : Declaration) : String → Prop where
  | absolute {name : String} (missing : g.lookup name = none) : Misses g context ("." ++ name)
  | relative {name : String} (hrelative : ∀ rest, name ≠ "." ++ rest)
    (missing : ∀ s, IsScope context.fullName s → g.lookup (nameIn s name) = none) :
    Misses g context name

theorem find?_dot (g : Graph) (context : Declaration) (name : String) :
    g.find? context ("." ++ name) = g.lookup name := by
  unfold find?
  rw [absolute?_dot]

theorem find?_relative {g : Graph} {context : Declaration} {name : String}
    (h : ∀ rest, name ≠ "." ++ rest) :
    g.find? context name = g.lookupFrom context.fullName name := by
  rcases absolute?_cases name with ⟨rest, heq, -⟩ | ⟨-, hnone⟩
  · exact absurd heq (h rest)
  · unfold find?
    rw [hnone]

theorem find?_eq_some_iff {g : Graph} {context d : Declaration} {typeName : String} :
    g.find? context typeName = some d ↔ g.Means context typeName d := by
  constructor
  · intro h
    rcases absolute?_cases typeName with ⟨rest, rfl, -⟩ | ⟨hne, -⟩
    · exact .absolute (find?_dot g context rest ▸ h)
    · rw [find?_relative hne, lookupFrom_eq_some_iff] at h
      obtain ⟨scope, hscope, hfound, hlongest⟩ := h
      exact .relative hne hscope hfound hlongest
  · intro h
    cases h with
    | absolute found => rw [find?_dot, found]
    | relative hrelative around found longest =>
      rw [find?_relative hrelative, lookupFrom_eq_some_iff]
      exact ⟨_, around, found, longest⟩

theorem find?_eq_none_iff {g : Graph} {context : Declaration} {typeName : String} :
    g.find? context typeName = none ↔ g.Misses context typeName := by
  have hscopes : ∀ name, g.lookupFrom context.fullName name = none ↔
      ∀ s, IsScope context.fullName s → g.lookup (nameIn s name) = none := by
    intro name
    unfold lookupFrom
    simp only [List.findSome?_eq_none_iff, mem_scopes_iff_isScope]
  constructor
  · intro h
    rcases absolute?_cases typeName with ⟨rest, rfl, -⟩ | ⟨hne, -⟩
    · exact .absolute (find?_dot g context rest ▸ h)
    · exact .relative hne ((hscopes typeName).1 (find?_relative hne ▸ h))
  · intro h
    cases h with
    | absolute missing => rw [find?_dot, missing]
    | relative hrelative missing => rw [find?_relative hrelative, (hscopes _).2 missing]

/-- What a type name stands for inside a declaration: first the scalar of which it is the keyword,
whatever declarations there are; then nothing when it is not well formed; then the declaration that
it means.  When it means none, a tolerant graph leaves it as it is, and any other graph refuses
it. -/
inductive StandsFor (g : Graph) (context : Declaration) (typeName : String) :
    Except ResolveError (Option ResolvedType) → Prop where
  | scalar {s : Scalar} (keyword : typeName = s.keyword) :
    StandsFor g context typeName (.ok (some (.scalar s)))
  | malformed (noKeyword : ∀ s : Scalar, typeName ≠ s.keyword) (malformed : ¬ IsTypeName typeName) :
    StandsFor g context typeName (.error (.invalidName typeName context.fullName))
  | declared {d : Declaration} (noKeyword : ∀ s : Scalar, typeName ≠ s.keyword)
    (formed : IsTypeName typeName) (means : g.Means context typeName d) :
    StandsFor g context typeName (.ok (some (.declared d)))
  | tolerated (noKeyword : ∀ s : Scalar, typeName ≠ s.keyword) (formed : IsTypeName typeName)
    (misses : g.Misses context typeName) (tolerant : g.tolerant = true) :
    StandsFor g context typeName (.ok none)
  | refused (noKeyword : ∀ s : Scalar, typeName ≠ s.keyword) (formed : IsTypeName typeName)
    (misses : g.Misses context typeName) (strict : g.tolerant = false) :
    StandsFor g context typeName (.error (.notFound typeName context.fullName context.path))

/-- What a type name is resolved to is what it stands for. -/
theorem standsFor_resolve (g : Graph) (context : Declaration) (typeName : String) :
    g.StandsFor context typeName (g.resolve context typeName) := by
  unfold resolve
  cases hkeyword : Scalar.ofKeyword? typeName with
  | some s => exact .scalar (Scalar.keyword_of_ofKeyword? hkeyword).symm
  | none =>
    have hnone : ∀ s : Scalar, typeName ≠ s.keyword := by
      rintro s rfl
      rw [Scalar.ofKeyword?_keyword] at hkeyword
      exact absurd hkeyword nofun
    by_cases hformed : isTypeName typeName = true
    · rw [if_pos hformed]
      have hname := isTypeName_iff.1 hformed
      cases hfind : g.find? context typeName with
      | some d => exact .declared hnone hname (find?_eq_some_iff.1 hfind)
      | none =>
        have hmisses := find?_eq_none_iff.1 hfind
        cases htolerant : g.tolerant with
        | true => exact .tolerated hnone hname hmisses htolerant
        | false => exact .refused hnone hname hmisses htolerant
    · rw [if_neg hformed]
      exact .malformed hnone (mt isTypeName_iff.2 hformed)

/-- A type name stands for one thing only. -/
theorem resolve_eq_of_standsFor {g : Graph} {context : Declaration} {typeName : String}
    {r : Except ResolveError (Option ResolvedType)} (h : g.StandsFor context typeName r) :
    g.resolve context typeName = r := by
  have hkeyword : (∀ s : Scalar, typeName ≠ s.keyword) → Scalar.ofKeyword? typeName = none := by
    intro hnone
    cases hsome : Scalar.ofKeyword? typeName with
    | none => rfl
    | some s => exact absurd (Scalar.keyword_of_ofKeyword? hsome).symm (hnone s)
  unfold resolve
  cases h with
  | scalar keyword => rw [keyword, Scalar.ofKeyword?_keyword]
  | malformed hnone malformed => simp only [hkeyword hnone, if_neg (mt isTypeName_iff.1 malformed)]
  | declared hnone formed means =>
    simp only [hkeyword hnone, if_pos (isTypeName_iff.2 formed), find?_eq_some_iff.2 means]
  | tolerated hnone formed misses tolerant =>
    simp only [hkeyword hnone, if_pos (isTypeName_iff.2 formed), find?_eq_none_iff.2 misses,
      if_pos tolerant]
  | refused hnone formed misses strict =>
    simp only [hkeyword hnone, if_pos (isTypeName_iff.2 formed), find?_eq_none_iff.2 misses, strict,
      Bool.false_eq_true, if_false]

/-- A type name is resolved to what it stands for, and the innermost scope decides.  The search goes
from a scope to the stretch before its last dot, and from a scope without a dot to the root, where
it ends: each step makes the scope shorter. -/
theorem resolve_iff_standsFor (g : Graph) (context : Declaration) (typeName : String) :
    (∀ r, g.resolve context typeName = r ↔ g.StandsFor context typeName r) ∧
    ∀ scope name,
      g.lookupFrom scope name = (g.lookup (nameIn scope name)).or
        (if scope = "" then none else g.lookupFrom (outerScope scope) name) ∧
      ((∃ rest, '.' ∉ rest.toList ∧ scope = outerScope scope ++ "." ++ rest) ∨
        '.' ∉ scope.toList ∧ outerScope scope = "") ∧
      (scope ≠ "" → (outerScope scope).length < scope.length) := by
  refine ⟨fun r => ⟨?_, resolve_eq_of_standsFor⟩, fun scope name =>
    ⟨lookupFrom_eq g scope name, outerScope_cases scope, length_outerScope_lt⟩⟩
  rintro rfl
  exact standsFor_resolve g context typeName

end Graph
end SchemaPage
