import SchemaPage.Proofs.Page.Alike
import SchemaPage.Proofs.Proto.Linked
import SchemaPage.Proofs.Schema.Scopes

/-!
# Schema files before and after linking

A schema file has the same declarations before its descriptor is linked and after it.  Linking
writes the types in another way, and what it writes is the full name of what the type name means.
Map fields are told by the last part of the type name alone, so two things are asked of the file: no
message is marked as a map entry by hand, and no other repeated field has a type with the name of a
map entry beside it.

* `FileDescriptor.Unmarked`, `FileDescriptor.Distinct`: what is asked of the file.
* `Names.Means`: what a type name means that is written down inside a declaration.
* `MessageDescriptor.forall₂_placed`: the messages of a file are placed where they were.
* `Placed.Resolves.alike`: the members of a message, the types apart, are what they were.
-/

namespace SchemaPage
namespace Proto

/-! ## What is asked of a file -/

/-- No message in the file is marked as a map entry by hand. -/
def FileDescriptor.Unmarked (f : FileDescriptor) : Prop :=
  ∀ m ∈ f.allMessages, isSet "map_entry" m.options = true → m.mapEntry = true

/-- No repeated field in the file that is no map has a type of the name of a map entry beside it. -/
def FileDescriptor.Distinct (f : FileDescriptor) : Prop :=
  ∀ m ∈ f.allMessages, ∀ x ∈ m.fields, x.label = .repeated → x.kind = none →
    m.entryNamed? (lastPart x.typeName) = none

instance (f : FileDescriptor) : Decidable f.Unmarked :=
  inferInstanceAs (Decidable (∀ m ∈ f.allMessages,
    isSet "map_entry" m.options = true → m.mapEntry = true))

instance (f : FileDescriptor) : Decidable f.Distinct :=
  inferInstanceAs (Decidable (∀ m ∈ f.allMessages, ∀ x ∈ m.fields, x.label = .repeated →
    x.kind = none → m.entryNamed? (lastPart x.typeName) = none))

/-! ## Type names -/

/-- What a type name means that is written down inside a declaration: a scalar, or what it means in
the scope of the declaration or of a map entry inside it. -/
inductive Names.Means (names : Names) (folded : List String) (d : Declaration) :
    String → String → Prop
  | scalar (s : Scalar) : Means names folded d s.keyword s.keyword
  | type {w scope : String} {s : Symbol}
      (place : scope = d.fullName ∨
        ∃ entry, isWord entry = true ∧ scope = nameIn d.fullName entry ∧ scope ∈ folded)
      (written : isWrittenType w = true) (keyword : Scalar.ofKeyword? w = none)
      (means : names.resolve? Symbol.isType scope w = some s) : Means names folded d w s.written
  | method {w : String} {s : Symbol} (service : d.kind = .service)
      (written : isWrittenType w = true)
      (means : names.resolve? Symbol.isMessage d.fullName w = some s) :
      Means names folded d w s.written

/-- A linked field writes down what its type name means. -/
theorem FieldDescriptor.means_of_resolve? {names : Names} {folded entries : List String}
    {d : Declaration} {scope : String} {f f' : FieldDescriptor} (hf : f.IsWritten entries)
    (place : scope = d.fullName ∨
      ∃ entry, isWord entry = true ∧ scope = nameIn d.fullName entry ∧ scope ∈ folded)
    (h : f.resolve? names scope = some f') :
    names.Means folded d f.writtenType f'.writtenType := by
  have hkeyword : f.typeName ≠ "" → Scalar.ofKeyword? f.typeName = none := fun hne => by
    unfold IsWritten at hf
    split at hf
    · exact absurd hf hne
    · exact hf.2.2.1
    · exact hf.2
    · exact absurd hf id
    · exact hf.2
  rcases writtenType_of_isReadable hf.isReadable with ⟨hempty, s, -, hs⟩ | ⟨hwritten, htype⟩
  · rcases resolve?_cases h with ⟨-, rfl⟩ | ⟨hne, -⟩
    · rw [hs]
      exact .scalar s
    · exact absurd hempty hne
  · have hne := ne_empty_of_isWrittenType hwritten
    rcases resolve?_cases h with ⟨hempty, -⟩ | ⟨-, s, hs, rfl⟩
    · exact absurd hempty hne
    · have htype' : FieldDescriptor.writtenType
          { f with kind := some (f.kindOf s), typeName := s.written } = s.written := by
        unfold writtenType kindOf
        rw [Option.getD_some]
        by_cases hmessage : s.isMessage = true
        · by_cases hgroup : f.kind = some .group
          · simp [hmessage, hgroup]
          · simp [hmessage, hgroup]
        · simp [hmessage]
      rw [htype, htype']
      exact .type place hwritten (hkeyword hne) hs

/-! ## Map entries -/

section Entries

variable {names : Names} {dialect : Dialect} {scope : String} {m m' : MessageDescriptor}

/-- A linked message has map entries of the names that it had. -/
theorem MessageDescriptor.Resolves.entryNamed?_cases (h : m.Resolves names dialect scope m')
    (hmarks : ∀ n ∈ m.nested, isSet "map_entry" n.options = true → n.mapEntry = true)
    (name : String) :
    (m.entryNamed? name = none ∧ m'.entryNamed? name = none) ∨
      ∃ n n', m.entryNamed? name = some n ∧ m'.entryNamed? name = some n' ∧ n ∈ m.nested ∧
        n.mapEntry = true ∧ n.name = name ∧ n.Resolves names dialect (nameIn scope m.name) n' := by
  have hnested : List.Forall₂ (fun n n' => n ∈ m.nested ∧
      n.Resolves names dialect (nameIn scope m.name) n') m.nested m'.nested :=
    (Outcome.forall₂_and_mem h.nested).imp fun n n' hn =>
      ⟨hn.1, MessageDescriptor.resolves_of_resolve? hn.2.2⟩
  have hmark : ∀ ⦃n n'⦄, n ∈ m.nested ∧ n.Resolves names dialect (nameIn scope m.name) n' →
      (n.mapEntry = true ↔ n'.mapEntry = true) := fun n n' hn => by
    rw [hn.2.mapEntry, Bool.or_eq_true]
    exact ⟨Or.inl, fun hor => hor.elim id (hmarks n hn.1)⟩
  have hentries := List.forall₂_reverse_iff.2
    (Outcome.forall₂_and_mem (List.rel_filter hmark hnested))
  have hsame : ∀ n n', (n ∈ m.nested.filter (·.mapEntry) ∧ n' ∈ m'.nested.filter (·.mapEntry) ∧
      n ∈ m.nested ∧ n.Resolves names dialect (nameIn scope m.name) n') →
      (n.name == name) = (n'.name == name) := fun n n' hn => by
    rw [hn.2.2.2.name]
  unfold MessageDescriptor.entryNamed?
  rcases Outcome.find?_cases_of_forall₂ hentries hsame with hnone | ⟨n, n', hn, hn', hmem, -, hr⟩
  · exact Or.inl hnone
  · have hname : n.name = name := by simpa using List.find?_some hn
    exact Or.inr ⟨n, n', hn, hn', hr.1, (List.mem_filter.1 hmem).2, hname, hr.2⟩

end Entries

/-! ## Places -/

/-- What a placed message becomes when its file is linked. -/
structure Placed.Resolves (names : Names) (dialect : Dialect) (package : String) (p p' : Placed) :
    Prop where
  name : p'.name = p.name
  path : p'.path = p.path
  message : ∃ scope, nameIn scope p.message.name = nameIn package p.name ∧
    p.message.Resolves names dialect scope p'.message

mutual

/-- The messages in a message are placed where they were. -/
theorem MessageDescriptor.forall₂_placed (names : Names) (dialect : Dialect) (package : String) :
    ∀ (m m' : MessageDescriptor) (scope : Option String) (full : String) (path : List Nat),
    (∀ x, nameIn package (scopedName scope x) = nameIn full x) → (∀ n ∈ m.within, n.name ≠ "") →
    (∀ n ∈ m.within, isSet "map_entry" n.options = true → n.mapEntry = true) →
    m.resolve? names dialect full = some m' →
    List.Forall₂ (Placed.Resolves names dialect package) (m.placed scope path)
      (m'.placed scope path)
  | ⟨name, fields, nested, enums, oneofs, extensions, ranges, reserved, rnames, entry, options⟩,
    m', scope, full, path, hfull, hne, hmarks, h => by
    have hm := MessageDescriptor.resolves_of_resolve? h
    have hname : name ≠ "" := hne _ (MessageDescriptor.mem_within_self _)
    have hown : ∀ x, nameIn package (scopedName (some (scopedName scope name)) x) =
        nameIn (nameIn full name) x := fun x => by
      rw [← hfull name]
      exact nameIn_nameIn package (scopedName_ne_empty scope hname) x
    have hadm : (fun n => (m'.entryNamed? n).isNone) =
        fun n => (MessageDescriptor.entryNamed? ⟨name, fields, nested, enums, oneofs, extensions,
          ranges, reserved, rnames, entry, options⟩ n).isNone := by
      funext n
      rcases hm.entryNamed?_cases (fun n hn => hmarks n
        (MessageDescriptor.nested_subset_within hn)) n with ⟨hl, hr⟩ | ⟨a, b, hl, hr, -⟩
      · rw [hl, hr]
      · rw [hl, hr]
        rfl
    rw [MessageDescriptor.placed_eq, MessageDescriptor.placed_eq, hm.name, hadm]
    refine .cons ⟨rfl, rfl, full, (hfull name).symm, hm⟩ ?_
    exact forall₂_placedAll names dialect package nested m'.nested _ _
      (nameIn full name) path 0 hown
      (fun n hn => hne n (List.mem_cons_of_mem _ hn))
      (fun n hn => hmarks n (List.mem_cons_of_mem _ hn)) hm.nested

/-- The same for the messages of a list. -/
theorem forall₂_placedAll (names : Names) (dialect : Dialect) (package : String) :
    ∀ (ms ms' : List MessageDescriptor) (admitted : String → Bool) (scope full : String)
      (path : List Nat) (index : Nat),
    (∀ x, nameIn package (scopedName (some scope) x) = nameIn full x) →
    (∀ n ∈ withinAll ms, n.name ≠ "") →
    (∀ n ∈ withinAll ms, isSet "map_entry" n.options = true → n.mapEntry = true) →
    List.Forall₂ (fun m m' => m.resolve? names dialect full = some m') ms ms' →
    List.Forall₂ (Placed.Resolves names dialect package)
      (placedAll admitted (some scope) path index ms)
      (placedAll admitted (some scope) path index ms')
  | [], _, _, _, _, _, _, _, _, _, .nil => .nil
  | m :: ms, _, admitted, scope, full, path, index, hfull, hne, hmarks, .cons hm hms => by
    unfold placedAll
    refine List.rel_append ?_ (forall₂_placedAll names dialect package ms _ admitted scope full path
      (index + 1) hfull (fun n hn => hne n (List.mem_append_right _ hn))
      (fun n hn => hmarks n (List.mem_append_right _ hn)) hms)
    rw [(MessageDescriptor.resolves_of_resolve? hm).name]
    by_cases hadm : admitted m.name = true
    · rw [if_pos hadm, if_pos hadm]
      exact MessageDescriptor.forall₂_placed names dialect package m _ (some scope) full _ hfull
        (fun n hn => hne n (List.mem_append_left _ hn))
        (fun n hn => hmarks n (List.mem_append_left _ hn)) hm
    · rw [if_neg hadm, if_neg hadm]
      exact .nil

end

/-- The messages of a file are placed where they were. -/
theorem FileDescriptor.Resolves.forall₂_placed {names : Names} {f f' : FileDescriptor}
    (h : f.Resolves names f') (hreadable : f.isReadable = true) (hmarks : f.Unmarked) :
    List.Forall₂ (Placed.Resolves names f.dialect f.package) f.placed f'.placed := by
  refine List.rel_flatMap (Outcome.forall₂_zipIdx (Outcome.forall₂_and_mem h.messages) 0) ?_
  rintro ⟨m, index⟩ ⟨m', index'⟩ ⟨⟨hm, -, hresolve⟩, hindex⟩
  obtain rfl : index = index' := hindex
  have hwithin : ∀ n ∈ m.within, n ∈ f.allMessages := fun n hn => List.mem_flatMap_of_mem hm hn
  refine MessageDescriptor.forall₂_placed names f.dialect f.package m m' none f.package _
    (fun _ => rfl) (fun n hn => ?_) (fun n hn => hmarks n (hwithin n hn)) hresolve
  exact (isWord_iff.1 (FileDescriptor.isWord_of_mem_allMessages hreadable n (hwithin n hn))).1

/-! ## Members -/

theorem eq_of_absolute? {w name : String} (h : absolute? w = some name) : w = "." ++ name := by
  unfold absolute? at h
  split at h
  · rename_i rest hw
    obtain rfl := Option.some_inj.1 h
    rw [← String.toList_inj, hw, String.toList_append, String.toList_ofList, String.toList_ofList,
      List.singleton_append]
  · exact absurd h nofun

/-- A symbol is known under a full name, and so is all that stands around it. -/
def Names.Knows (names : Names) (admitted : Symbol → Bool) (name : String) : Prop :=
  (∃ s, names.symbol? admitted name = some s) ∧
    ∀ a ∈ scopes name, a ≠ "" → names.isTaken a = true

/-- A name means what it is the full name of, or what one of the scopes has for it: the first of
them that passes a test, which every scope passes that has a known symbol for the name. -/
theorem Names.resolve?_cases {names : Names} {admitted : Symbol → Bool} {scope w : String}
    {s : Symbol} (hw : isWrittenType w = true) (h : names.resolve? admitted scope w = some s) :
    absolute? w = some s.name ∨ absolute? w = none ∧ ∃ (test : String → Bool) (a : String),
      (scopes scope).find? test = some a ∧ s.name = nameIn a w ∧
        ∀ b, names.Knows admitted (nameIn b w) → test b = true := by
  unfold resolve? at h
  split at h
  · rename_i full habsolute
    rw [(mem_of_symbol? h).2.1]
    exact Or.inl habsolute
  · rename_i habsolute
    refine Or.inr ⟨habsolute, ?_⟩
    split at h
    · rename_i first second rest hparts
      obtain ⟨a, ha, h⟩ := Option.bind_eq_some_iff.1 h
      refine ⟨_, a, ha, (mem_of_symbol? h).2.1, fun b hb => ?_⟩
      refine hb.2 _ (nameIn_first_mem_scopes hparts b) (nameIn_ne_empty b ?_)
      unfold isWrittenType isDotted at hw
      rw [habsolute, Option.getD_none, hparts] at hw
      exact (isWord_iff.1 (List.all_eq_true.1 hw first List.mem_cons_self)).1
    · obtain ⟨a, ha, hs⟩ := Outcome.find?_of_findSome? h
      exact ⟨_, a, ha, (mem_of_symbol? hs).2.1, fun b hb => Option.isSome_iff_exists.2 hb.1⟩

/-- The full name of what a name means ends with the last part of the name. -/
theorem Names.lastPart_of_resolve? {names : Names} {admitted : Symbol → Bool} {scope w : String}
    {s : Symbol} (hw : isWrittenType w = true) (h : names.resolve? admitted scope w = some s) :
    lastPart s.written = lastPart w := by
  unfold Symbol.written
  rcases resolve?_cases hw h with habsolute | ⟨-, -, a, -, hname, -⟩
  · rw [← eq_of_absolute? habsolute]
  · rw [hname]
    exact (lastPart_append_dot "" _).trans (lastPart_nameIn a w)

/-- What the scope itself has for a word is what the word means in the scope. -/
theorem Names.resolve?_of_symbol? {names : Names} {admitted : Symbol → Bool} {scope w : String}
    {s : Symbol} (hw : isWord w = true) (h : names.symbol? admitted (nameIn scope w) = some s) :
    names.resolve? admitted scope w = some s := by
  unfold resolve? scopes
  rw [absolute?_of_isDotted (isDotted_of_isWord hw), split_of_isWord hw]
  simp only [List.cons_append, List.findSome?_cons, h]

namespace Placed

/-- What is known of a placed message when it is linked: it is as it is read, and its map entries
are told apart from everything else. -/
structure Links (names : Names) (folded : List String) (d : Declaration) (p : Placed) : Prop where
  written : p.message.IsWritten
  nested : ∀ n ∈ p.message.nested, n.IsWritten
  unmarked : ∀ n ∈ p.message.nested, isSet "map_entry" n.options = true → n.mapEntry = true
  distinct : ∀ x ∈ p.message.fields, x.label = .repeated → x.kind = none →
    p.message.entryNamed? (lastPart x.typeName) = none
  entries : ∀ n ∈ p.message.nested, n.mapEntry = true → nameIn d.fullName n.name ∈ folded ∧
    ∃ s, names.symbol? Symbol.isType (nameIn d.fullName n.name) = some s ∧ s.isMessage = true

section Members

variable {names : Names} {dialect : Dialect} {package : String} {p p' : Placed}
  {folded : List String} {d : Declaration} {locations : List Location}

/-- A map field has the message for its entries before it is linked, and after it. -/
theorem entryOf?_mapField (h : p.Resolves names dialect package p')
    (hd : d.fullName = nameIn package p.name) (hp : p.Links names folded d)
    {x x' : FieldDescriptor} (hx : x ∈ p.message.fields) (hkind : x.kind = some .message)
    (hresolve : x.resolve? names d.fullName = some x') :
    ∃ typeName n n', x' = { x with kind := some .message, typeName } ∧
      p.message.entryOf? x = some n ∧ p'.message.entryOf? x' = some n' ∧ n ∈ p.message.nested ∧
      n.mapEntry = true ∧ n.Resolves names dialect d.fullName n' := by
  obtain ⟨scope, hscope, hmessage⟩ := h.message
  have hown : nameIn scope p.message.name = d.fullName := hscope.trans hd.symm
  have hwritten := hp.written.fields x hx
  unfold FieldDescriptor.IsWritten at hwritten
  rw [hkind] at hwritten
  obtain ⟨hlabel, hword, -, hentry⟩ := hwritten
  obtain ⟨e, he, hename⟩ := List.mem_map.1 hentry
  obtain ⟨he, hmark⟩ := List.mem_filter.1 he
  -- the type name of the field means the message for its entries, which is looked for first
  obtain ⟨-, s, hs, hsmessage⟩ := hp.entries e he hmark
  rw [hename] at hs
  have hsname : s.name = nameIn d.fullName x.typeName := (Names.mem_of_symbol? hs).2.1
  have hmeans := Names.resolve?_of_symbol? hword hs
  have hlast : lastPart x.typeName = x.typeName := lastPart_of_isWord hword
  have hlast' : lastPart s.written = x.typeName := by
    unfold Symbol.written
    rw [hsname]
    exact (lastPart_append_dot "" _).trans ((lastPart_nameIn _ _).trans hlast)
  have hx' : x' = { x with kind := some .message, typeName := s.written } := by
    rcases FieldDescriptor.resolve?_cases hresolve with ⟨hempty, -⟩ | ⟨-, s', hs', rfl⟩
    · exact absurd hempty (isWord_iff.1 hword).1
    · obtain rfl := Option.some_inj.1 (hmeans.symm.trans hs')
      unfold FieldDescriptor.kindOf
      rw [hsmessage, hkind]
      rfl
  rcases hmessage.entryNamed?_cases hp.unmarked x.typeName with
    ⟨hnone, -⟩ | ⟨n, n', hn, hn', hnested, hnmark, -, hresolves⟩
  · unfold MessageDescriptor.entryNamed? at hnone
    have hno := List.find?_eq_none.1 hnone e (List.mem_reverse.2 (List.mem_filter.2 ⟨he, hmark⟩))
    exact absurd (beq_iff_eq.2 hename) hno
  · refine ⟨s.written, n, n', hx', ?_, ?_, hnested, hnmark, hown ▸ hresolves⟩
    · unfold MessageDescriptor.entryOf?
      rw [if_pos ⟨hlabel, hkind⟩, hlast, hn]
    · rw [hx']
      unfold MessageDescriptor.entryOf?
      rw [if_pos ⟨hlabel, rfl⟩, hlast', hn']

/-- The entries of a map have a key and a value, and what the types of these mean. -/
theorem means_entry (hp : p.Links names folded d) {n n' : MessageDescriptor}
    (hn : n ∈ p.message.nested) (hmark : n.mapEntry = true)
    (hresolves : n.Resolves names dialect d.fullName n') :
    ∃ key value key' value', n.fields = [key, value] ∧ n'.fields = [key', value'] ∧
      names.Means folded d key.writtenType key'.writtenType ∧
      names.Means folded d value.writtenType value'.writtenType := by
  obtain ⟨key, value, hfields⟩ := (hp.nested n hn).entry hmark
  have hparts := hresolves.fields
  rw [hfields] at hparts
  obtain ⟨key', tail, hkey, htail, hfields'⟩ := List.forall₂_cons_left_iff.1 hparts
  obtain ⟨value', rest, hvalue, hrest, rfl⟩ := List.forall₂_cons_left_iff.1 htail
  obtain rfl := List.forall₂_nil_left_iff.1 hrest
  have hplace : nameIn d.fullName n.name = d.fullName ∨ ∃ entry, isWord entry = true ∧
      nameIn d.fullName n.name = nameIn d.fullName entry ∧ nameIn d.fullName n.name ∈ folded :=
    Or.inr ⟨n.name, (hp.nested n hn).name, rfl, (hp.entries n hn hmark).1⟩
  have hwritten : ∀ y ∈ n.fields, y.IsWritten n.entryNames := (hp.nested n hn).fields
  rw [hfields] at hwritten
  exact ⟨key, value, key', value', hfields, hfields',
    FieldDescriptor.means_of_resolve? (hwritten key List.mem_cons_self) hplace hkey,
    FieldDescriptor.means_of_resolve? (hwritten value (List.mem_cons_of_mem _ List.mem_cons_self))
      hplace hvalue⟩

/-- The entries of a map field are what they were, the types apart. -/
theorem alike_mapField (h : p.Resolves names dialect package p')
    (hd : d.fullName = nameIn package p.name) (hp : p.Links names folded d)
    {x x' : FieldDescriptor} (hx : x ∈ p.message.fields) (hkind : x.kind = some .message)
    (hresolve : x.resolve? names d.fullName = some x') (inGroup : Bool) (index : Nat) :
    Field.Alike (names.Means folded d) (p.field locations dialect inGroup x index)
      (p'.field locations dialect inGroup x' index) := by
  obtain ⟨typeName, n, n', hx', hof, hof', hn, hmark, hresolves⟩ :=
    entryOf?_mapField h hd hp hx hkind hresolve
  obtain ⟨key, value, key', value', hfields, hfields', hkey, hvalue⟩ :=
    means_entry hp hn hmark hresolves
  unfold field
  rw [hof, hof', hx', h.path]
  simp only [hfields, hfields', List.getElem?_cons_zero, List.getElem?_cons_succ,
    Option.map_some, Option.getD_some]
  exact .map _ hkey hvalue

/-- A field that is no map is none once it is linked. -/
theorem entryOf?_plainField (h : p.Resolves names dialect package p') (hp : p.Links names folded d)
    {x x' : FieldDescriptor} (hx : x ∈ p.message.fields) (hkind : x.kind ≠ some .message)
    (hresolve : x.resolve? names d.fullName = some x') : p'.message.entryOf? x' = none := by
  obtain ⟨scope, -, hmessage⟩ := h.message
  have hwritten := hp.written.fields x hx
  unfold MessageDescriptor.entryOf?
  refine ite_eq_right_iff.2 fun ⟨hlabel, hmessage'⟩ => ?_
  rcases FieldDescriptor.resolve?_cases hresolve with ⟨-, rfl⟩ | ⟨hne, s, hs, rfl⟩
  · exact absurd hmessage' hkind
  · -- only a field whose type name is not known to be anything can have become one
    have hnone : x.kind = none := by
      unfold FieldDescriptor.IsWritten at hwritten
      unfold FieldDescriptor.kindOf at hmessage'
      split at hwritten
      · exact absurd hwritten hne
      · exact absurd ‹_› hkind
      · rename_i hgroup
        rw [hgroup] at hmessage'
        cases hs : s.isMessage <;> simp [hs] at hmessage'
      · exact absurd hwritten id
      · assumption
    have htypeName : isWrittenType x.typeName = true := by
      rcases FieldDescriptor.writtenType_of_isReadable hwritten.isReadable with ⟨hempty, -⟩ | h
      · exact absurd hempty hne
      · exact h.1
    have hlast : lastPart s.written = lastPart x.typeName :=
      Names.lastPart_of_resolve? htypeName hs
    rw [hlast]
    rcases hmessage.entryNamed?_cases hp.unmarked (lastPart x.typeName) with ⟨-, hn⟩ | ⟨n, _, hn, -⟩
    · exact hn
    · rw [hp.distinct x hx hlabel hnone] at hn
      exact absurd hn nofun

/-- A field that is no map is what it was, the type apart. -/
theorem alike_plainField (h : p.Resolves names dialect package p')
    (hp : p.Links names folded d) {x x' : FieldDescriptor} (hx : x ∈ p.message.fields)
    (hkind : x.kind ≠ some .message) (hresolve : x.resolve? names d.fullName = some x')
    (inGroup : Bool) (index : Nat) :
    Field.Alike (names.Means folded d) (p.field locations dialect inGroup x index)
      (p'.field locations dialect inGroup x' index) := by
  have htype : names.Means folded d x.writtenType x'.writtenType :=
    FieldDescriptor.means_of_resolve? (hp.written.fields x hx) (Or.inl rfl) hresolve
  have hof : p.message.entryOf? x = none := if_neg fun hmap => hkind hmap.2
  unfold field
  rw [hof, entryOf?_plainField h hp hx hkind hresolve, h.path]
  rcases FieldDescriptor.resolve?_cases hresolve with ⟨-, rfl⟩ | ⟨-, s, -, rfl⟩
  · exact .plain _ htype
  · exact .plain _ htype

theorem alike_field (h : p.Resolves names dialect package p')
    (hd : d.fullName = nameIn package p.name) (hp : p.Links names folded d)
    {x x' : FieldDescriptor} (hx : x ∈ p.message.fields)
    (hresolve : x.resolve? names d.fullName = some x') (inGroup : Bool) (index : Nat) :
    Field.Alike (names.Means folded d) (p.field locations dialect inGroup x index)
      (p'.field locations dialect inGroup x' index) := by
  by_cases hkind : x.kind = some .message
  · exact alike_mapField h hd hp hx hkind hresolve inGroup index
  · exact alike_plainField h hp hx hkind hresolve inGroup index

/-- The fields of a message are linked one by one, each at its position. -/
theorem Resolves.forall₂_fields (h : p.Resolves names dialect package p')
    (hd : d.fullName = nameIn package p.name) :
    List.Forall₂ (fun a b => (a.1 ∈ p.message.fields ∧ a.1.resolve? names d.fullName = some b.1) ∧
      a.2 = b.2) p.message.fields.zipIdx p'.message.fields.zipIdx := by
  obtain ⟨scope, hscope, hmessage⟩ := h.message
  have hfields := hmessage.fields
  rw [hscope, ← hd] at hfields
  have hmem : List.Forall₂ (fun x x' => x ∈ p.message.fields ∧
      x.resolve? names d.fullName = some x') p.message.fields p'.message.fields :=
    (Outcome.forall₂_and_mem hfields).imp fun _ _ hx => ⟨hx.1, hx.2.2⟩
  exact Outcome.forall₂_zipIdx hmem 0

theorem shownOneof_of_resolve? {scope : String} {x x' : FieldDescriptor}
    (h : x.resolve? names scope = some x') : x'.shownOneof = x.shownOneof := by
  rcases FieldDescriptor.resolve?_cases h with ⟨-, rfl⟩ | ⟨-, s, -, rfl⟩
  · rfl
  · rfl

/-- A group has the fields that it had. -/
theorem alike_oneof (h : p.Resolves names dialect package p')
    (hd : d.fullName = nameIn package p.name) (hp : p.Links names folded d) (oneof : Nat) :
    Field.Alike (names.Means folded d) (p.oneof locations dialect oneof)
      (p'.oneof locations dialect oneof) := by
  have hinside : List.Forall₂ (Field.Alike (names.Means folded d))
      ((p.inOneof oneof).map fun a => p.field locations dialect true a.1 a.2)
      ((p'.inOneof oneof).map fun b => p'.field locations dialect true b.1 b.2) := by
    rw [List.forall₂_map_left_iff, List.forall₂_map_right_iff]
    refine List.Forall₂.imp (fun a b hab => ?_) (List.rel_filter (fun a b hab => ?_)
      (h.forall₂_fields hd))
    · rw [← hab.2]
      exact alike_field h hd hp hab.1.1 hab.1.2 true a.2
    · show (a.1.shownOneof == some oneof) = true ↔ (b.1.shownOneof == some oneof) = true
      rw [shownOneof_of_resolve? hab.1.2]
  obtain ⟨scope, -, hmessage⟩ := h.message
  have hname : (p'.message.oneofs[oneof]?.map OneofDescriptor.name).getD "" =
      (p.message.oneofs[oneof]?.map OneofDescriptor.name).getD "" := by
    rw [hmessage.oneofs]
  unfold Placed.oneof
  rw [hname, h.path]
  exact .oneof _ _ hinside

/-- The members of a message are what they were, the types apart. -/
theorem Resolves.alike (h : p.Resolves names dialect package p')
    (hd : d.fullName = nameIn package p.name) (hp : p.Links names folded d) :
    List.Forall₂ (Field.Alike (names.Means folded d)) (p.members locations dialect)
      (p'.members locations dialect) := by
  obtain ⟨scope, -, hmessage⟩ := h.message
  have hshown : p'.message.fields.map (·.shownOneof) = p.message.fields.map (·.shownOneof) :=
    (Outcome.map_eq_map_of_forall₂ hmessage.fields fun _ _ _ _ hx =>
      (shownOneof_of_resolve? hx).symm).symm
  have hbefore : ∀ (index oneof : Nat),
      (p'.message.fields.take index).any (·.shownOneof == some oneof) =
        (p.message.fields.take index).any (·.shownOneof == some oneof) := fun index oneof => by
    have hany : ∀ l : List FieldDescriptor, (l.take index).any (·.shownOneof == some oneof) =
        ((l.map (·.shownOneof)).take index).any (· == some oneof) := fun l => by
      rw [← List.map_take, List.any_map]
      rfl
    rw [hany, hany, hshown]
  refine List.rel_flatMap (h.forall₂_fields hd) fun a b hab => ?_
  obtain ⟨⟨hx, hresolve⟩, hindex⟩ := hab
  show List.Forall₂ _ (p.memberAt locations dialect a.1 a.2) (p'.memberAt locations dialect b.1 b.2)
  unfold memberAt
  rw [shownOneof_of_resolve? hresolve, ← hindex]
  cases a.1.shownOneof with
  | none => exact .cons (alike_field h hd hp hx hresolve false a.2) .nil
  | some oneof =>
    simp only [hbefore]
    split
    · exact .nil
    · exact .cons (alike_oneof h hd hp oneof) .nil

end Members

end Placed

end Proto
end SchemaPage
