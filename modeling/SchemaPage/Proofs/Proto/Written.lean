import SchemaPage.Proofs.Proto.Words
import SchemaPage.Proto.Reader

/-!
# Descriptors as they are read

What the reader makes of a text.  Every name in it is a word.  A field has a scalar, or a type name
that is written down and not known to be anything, unless it is a group or a map; the field of a map
names a message for its entries, which has a key and a value and stands inside the same message.

* `MessageDescriptor.within`: a message and all messages inside it.
* `FieldDescriptor.IsWritten`, `MessageDescriptor.IsWritten`, `FileDescriptor.IsWritten`:
  descriptors as they are read.
* `Phrase.Reads`, `Phrase.Gives`: what a phrase makes of words.
-/

namespace SchemaPage
namespace Proto

/-! ## Messages inside messages -/

mutual

/-- The message and all messages inside it, outer ones first. -/
def MessageDescriptor.within : MessageDescriptor → List MessageDescriptor
  | m@⟨_, _, nested, _, _, _, _, _, _, _, _⟩ => m :: withinAll nested

/-- The messages of a list and all messages inside them. -/
def withinAll : List MessageDescriptor → List MessageDescriptor
  | [] => []
  | m :: rest => m.within ++ withinAll rest

end

theorem withinAll_eq (ms : List MessageDescriptor) :
    withinAll ms = ms.flatMap MessageDescriptor.within := by
  induction ms with
  | nil => rfl
  | cons m ms ih =>
    unfold withinAll
    rw [ih, List.flatMap_cons]

theorem MessageDescriptor.within_eq (m : MessageDescriptor) :
    m.within = m :: m.nested.flatMap MessageDescriptor.within := by
  rw [← withinAll_eq]
  cases m
  rfl

theorem MessageDescriptor.mem_within_self (m : MessageDescriptor) : m ∈ m.within := by
  rw [within_eq]
  exact List.mem_cons_self

theorem MessageDescriptor.nested_subset_within {m n : MessageDescriptor} (h : n ∈ m.nested) :
    n ∈ m.within := by
  rw [within_eq]
  exact List.mem_cons_of_mem _ (List.mem_flatMap_of_mem h n.mem_within_self)

mutual

/-- What stands inside a message inside a message stands inside it. -/
theorem MessageDescriptor.within_subset_within : ∀ {m n : MessageDescriptor}, n ∈ m.within →
    n.within ⊆ m.within
  | ⟨_, _, nested, _, _, _, _, _, _, _, _⟩, _, h => by
    rcases List.mem_cons.1 h with rfl | h
    · exact List.Subset.refl _
    · exact fun o ho => List.mem_cons_of_mem _ (within_subset_withinAll h ho)

theorem within_subset_withinAll : ∀ {ms : List MessageDescriptor} {n : MessageDescriptor},
    n ∈ withinAll ms → n.within ⊆ withinAll ms
  | [], _, h => by
    unfold withinAll at h
    exact absurd h List.not_mem_nil
  | m :: ms, _, h => by
    unfold withinAll at h ⊢
    rcases List.mem_append.1 h with h | h
    · exact fun o ho => List.mem_append_left _ (MessageDescriptor.within_subset_within h ho)
    · exact fun o ho => List.mem_append_right _ (within_subset_withinAll h ho)

end

/-- The messages of the file, at any depth. -/
def FileDescriptor.allMessages (f : FileDescriptor) : List MessageDescriptor :=
  f.messages.flatMap MessageDescriptor.within

theorem FileDescriptor.nested_mem_allMessages {f : FileDescriptor} {m n : MessageDescriptor}
    (hm : m ∈ f.allMessages) (hn : n ∈ m.nested) : n ∈ f.allMessages := by
  obtain ⟨outer, houter, hm⟩ := List.mem_flatMap.1 hm
  exact List.mem_flatMap_of_mem houter
    (MessageDescriptor.within_subset_within hm (MessageDescriptor.nested_subset_within hn))

/-! ## Descriptors as they are read -/

/-- Whether a text is a type name as it is written: a dotted name, possibly after a dot. -/
def isWrittenType (w : String) : Bool := isDotted ((absolute? w).getD w)

theorem isTypeName_of_isWrittenType {w : String} (h : isWrittenType w = true) :
    isTypeName w = true := by
  unfold isTypeName
  rw [List.all_eq_true]
  exact fun part hpart => isWord_all_isNameChar (List.all_eq_true.1 h part hpart)

theorem isWrittenType_of_isDotted {w : String} (h : isDotted w = true) :
    isWrittenType w = true := by
  unfold isWrittenType
  rwa [absolute?_of_isDotted h]

theorem isWrittenType_dot {w : String} (h : isDotted w = true) :
    isWrittenType ("." ++ w) = true := by
  unfold isWrittenType
  rwa [absolute?_dot]

theorem ne_empty_of_isWrittenType {w : String} (h : isWrittenType w = true) : w ≠ "" := by
  rintro rfl
  exact absurd h (by decide)

/-- The field is as it is read, in a message with map entries of the names `entries`. -/
def FieldDescriptor.IsWritten (entries : List String) (f : FieldDescriptor) : Prop :=
  match f.kind with
  | some (.scalar _) => f.typeName = ""
  | some .message => f.label = .repeated ∧ isWord f.typeName = true ∧
      Scalar.ofKeyword? f.typeName = none ∧ f.typeName ∈ entries
  | some .group => isWord f.typeName = true ∧ Scalar.ofKeyword? f.typeName = none
  | some .enumeration => False
  | none => isWrittenType f.typeName = true ∧ Scalar.ofKeyword? f.typeName = none

/-- The names of the map entries in a message. -/
def MessageDescriptor.entryNames (m : MessageDescriptor) : List String :=
  (m.nested.filter (·.mapEntry)).map (·.name)

/-- The message is as it is read, the messages inside it apart. -/
structure MessageDescriptor.IsWritten (m : MessageDescriptor) : Prop where
  name : isWord m.name = true
  fields : ∀ f ∈ m.fields, f.IsWritten m.entryNames
  enums : ∀ e ∈ m.enums, isWord e.name = true
  entry : m.mapEntry = true → ∃ key value, m.fields = [key, value]

/-- The types of a method are as they are written. -/
def MethodDescriptor.IsWritten (m : MethodDescriptor) : Prop :=
  isWrittenType m.input = true ∧ isWrittenType m.output = true

/-- The file is as it is read. -/
structure FileDescriptor.IsWritten (f : FileDescriptor) : Prop where
  package : f.package = "" ∨ isDotted f.package = true
  messages : ∀ m ∈ f.messages, ∀ n ∈ m.within, n.IsWritten
  enums : ∀ e ∈ f.enums, isWord e.name = true
  methods : ∀ s ∈ f.services, ∀ m ∈ s.methods, m.IsWritten

/-- More map entries do no harm. -/
theorem FieldDescriptor.IsWritten.mono {f : FieldDescriptor} {entries entries' : List String}
    (h : f.IsWritten entries) (hsub : entries ⊆ entries') : f.IsWritten entries' := by
  unfold IsWritten at *
  split at h
  · exact h
  · exact ⟨h.1, h.2.1, h.2.2.1, hsub h.2.2.2⟩
  · exact h
  · exact h
  · exact h

/-! ## Phrases -/

namespace Phrase

variable {α β : Type} {p : Phrase α} {f : α → Phrase β} {P : α → Prop} {Q : β → Prop}

/-- From words the phrase reads something with the property, and leaves words. -/
def Reads (p : Phrase α) (P : α → Prop) : Prop :=
  ∀ ⦃ts a rest⦄, (∀ t ∈ ts, t.Valid) → p ts = some (a, rest) → P a ∧ ∀ t ∈ rest, t.Valid

/-- From words the phrase reads something with the property. -/
def Gives (p : Phrase α) (P : α → Prop) : Prop :=
  ∀ ⦃ts a rest⦄, (∀ t ∈ ts, t.Valid) → p ts = some (a, rest) → P a

/-- Whatever the phrase reads has the property. -/
def Always (p : Phrase α) (P : α → Prop) : Prop := ∀ ⦃ts a rest⦄, p ts = some (a, rest) → P a

theorem bind_eq_some_iff {ts : List Token} {r : β × List Token} :
    (p >>= f) ts = some r ↔ ∃ a rest, p ts = some (a, rest) ∧ f a rest = some r := by
  have h : (p >>= f) ts = (p ts).bind fun (a, rest) => f a rest := rfl
  rw [h, Option.bind_eq_some_iff]
  exact ⟨fun ⟨⟨a, rest⟩, hp, hf⟩ => ⟨a, rest, hp, hf⟩, fun ⟨a, rest, hp, hf⟩ => ⟨⟨a, rest⟩, hp, hf⟩⟩

theorem Reads.bind (hp : p.Reads P) (hf : ∀ a, P a → (f a).Reads Q) : (p >>= f).Reads Q := by
  intro ts b rest hts h
  obtain ⟨a, rest', ha, hb⟩ := bind_eq_some_iff.1 h
  obtain ⟨hPa, hrest'⟩ := hp hts ha
  exact hf a hPa hrest' hb

theorem Gives.bind (hp : p.Reads P) (hf : ∀ a, P a → (f a).Gives Q) : (p >>= f).Gives Q := by
  intro ts b rest hts h
  obtain ⟨a, rest', ha, hb⟩ := bind_eq_some_iff.1 h
  obtain ⟨hPa, hrest'⟩ := hp hts ha
  exact hf a hPa hrest' hb

theorem Always.bind (hf : ∀ a, (f a).Always Q) : (p >>= f).Always Q := by
  intro ts b rest h
  obtain ⟨a, rest', -, hb⟩ := bind_eq_some_iff.1 h
  exact hf a hb

theorem Always.gives (h : p.Always P) : p.Gives P := fun _ _ _ _ ha => h ha

theorem Always.pure {a : α} (h : P a) : (pure a : Phrase α).Always P := by
  intro ts b rest hb
  obtain ⟨rfl, -⟩ := Prod.mk.inj (Option.some_inj.1 hb)
  exact h

theorem Reads.pure {a : α} (h : P a) : (pure a : Phrase α).Reads P := by
  intro ts b rest hts hb
  obtain ⟨rfl, rfl⟩ := Prod.mk.inj (Option.some_inj.1 hb)
  exact ⟨h, hts⟩

theorem Always.failure : (failure : Phrase α).Always P := fun _ _ _ h => nomatch h

theorem reads_guard (c : Prop) [Decidable c] : (guard c : Phrase Unit).Reads fun _ => c := by
  intro ts a rest hts h
  by_cases hc : c
  · rw [show (guard c : Phrase Unit) = pure () from if_pos hc] at h
    obtain ⟨-, rfl⟩ := Prod.mk.inj (Option.some_inj.1 h)
    exact ⟨hc, hts⟩
  · rw [show (guard c : Phrase Unit) = failure from if_neg hc] at h
    exact absurd h (Option.some_ne_none _).symm

/-- What is read to the end has the property. -/
theorem Gives.whole (hp : p.Gives P) {ts : List Token} (hts : ∀ t ∈ ts, t.Valid) {a : α}
    (h : whole? p ts = some a) : P a := by
  unfold whole? at h
  split at h
  · rename_i b hb
    obtain rfl := Option.some_inj.1 h
    exact hp hts hb
  · exact absurd h nofun

/-! ## Names in phrases -/

theorem reads_word : word.Reads fun w => isWord w = true := by
  intro ts w rest hts h
  unfold word at h
  split at h
  · obtain ⟨rfl, rfl⟩ := Prod.mk.inj (Option.some_inj.1 h)
    exact ⟨hts _ List.mem_cons_self, fun t ht => hts t (List.mem_cons_of_mem _ ht)⟩
  · exact absurd h nofun

theorem reads_symbol (c : Char) : (symbol c).Reads fun _ => True := by
  intro ts a rest hts h
  unfold symbol at h
  split at h
  · split at h
    · obtain ⟨-, rfl⟩ := Prod.mk.inj (Option.some_inj.1 h)
      exact ⟨trivial, fun t ht => hts t (List.mem_cons_of_mem _ ht)⟩
    · exact absurd h nofun
  · exact absurd h nofun

theorem reads_symbol? (c : Char) : (symbol? c).Reads fun _ => True := by
  intro ts a rest hts h
  unfold symbol? at h
  split at h
  · split at h
    · obtain ⟨-, rfl⟩ := Prod.mk.inj (Option.some_inj.1 h)
      exact ⟨trivial, fun t ht => hts t (List.mem_cons_of_mem _ ht)⟩
    · obtain ⟨-, rfl⟩ := Prod.mk.inj (Option.some_inj.1 h)
      exact ⟨trivial, hts⟩
  · obtain ⟨-, rfl⟩ := Prod.mk.inj (Option.some_inj.1 h)
    exact ⟨trivial, hts⟩

theorem reads_keyword? (w : String) : (keyword? w).Reads fun _ => True := by
  intro ts a rest hts h
  unfold keyword? at h
  split at h
  · split at h
    · obtain ⟨-, rfl⟩ := Prod.mk.inj (Option.some_inj.1 h)
      exact ⟨trivial, fun t ht => hts t (List.mem_cons_of_mem _ ht)⟩
    · obtain ⟨-, rfl⟩ := Prod.mk.inj (Option.some_inj.1 h)
      exact ⟨trivial, hts⟩
  · obtain ⟨-, rfl⟩ := Prod.mk.inj (Option.some_inj.1 h)
    exact ⟨trivial, hts⟩

theorem reads_keyword (w : String) : (keyword w).Reads fun _ => True := by
  unfold keyword
  refine (reads_keyword? w).bind fun a _ => ?_
  intro ts b rest hts h
  exact ⟨trivial, (reads_guard (a = true) hts h).2⟩

theorem reads_name : name.Reads fun n => isDotted n = true := by
  intro ts n rest hts h
  unfold name at h
  induction ts using dottedName.induct generalizing n rest with
  | case1 w ts ih =>
    unfold dottedName at h
    obtain ⟨⟨m, rest'⟩, hm, heq⟩ := Option.map_eq_some_iff.1 h
    obtain ⟨rfl, rfl⟩ := Prod.mk.inj heq
    obtain ⟨hdotted, hrest⟩ := ih (fun t ht =>
      hts t (List.mem_cons_of_mem _ (List.mem_cons_of_mem _ ht))) hm
    exact ⟨isDotted_append (isDotted_of_isWord (hts _ List.mem_cons_self)) hdotted, hrest⟩
  | case2 w ts hne =>
    rw [dottedName] at h
    · obtain ⟨rfl, rfl⟩ := Prod.mk.inj (Option.some_inj.1 h)
      exact ⟨isDotted_of_isWord (hts _ List.mem_cons_self),
        fun t ht => hts t (List.mem_cons_of_mem _ ht)⟩
    · exact hne
  | case3 ts hne hne' =>
    rw [dottedName] at h
    · exact absurd h nofun
    · exact hne
    · exact hne'

theorem reads_typeName : typeName.Reads fun w => isWrittenType w = true := by
  unfold typeName
  refine (reads_symbol? '.').bind fun leading _ => ?_
  refine reads_name.bind fun n hn => Reads.pure ?_
  cases leading with
  | true => exact isWrittenType_dot hn
  | false => exact isWrittenType_of_isDotted hn

/-- The tokens do not start with the keyword of a scalar. -/
def NoKeyword (ts : List Token) : Prop :=
  ∀ w rest, ts = .word w :: rest → Scalar.ofKeyword? w = none

theorem ofKeyword?_of_name {ts rest : List Token} {n : String} (hstart : NoKeyword ts)
    (h : name ts = some (n, rest)) : Scalar.ofKeyword? n = none := by
  unfold name dottedName at h
  split at h
  · obtain ⟨⟨m, rest'⟩, -, heq⟩ := Option.map_eq_some_iff.1 h
    rw [← (Prod.mk.inj heq).1]
    exact ofKeyword?_append_dot _ _
  · rw [← (Prod.mk.inj (Option.some_inj.1 h)).1]
    exact hstart _ _ rfl
  · exact absurd h nofun

/-- A type name that does not start with the keyword of a scalar is none. -/
theorem ofKeyword?_of_typeName {ts rest : List Token} {n : String} (hstart : NoKeyword ts)
    (h : typeName ts = some (n, rest)) : Scalar.ofKeyword? n = none := by
  unfold typeName at h
  obtain ⟨leading, rest', hsymbol, h⟩ := bind_eq_some_iff.1 h
  obtain ⟨m, rest'', hname, h⟩ := bind_eq_some_iff.1 h
  obtain ⟨rfl, -⟩ := Prod.mk.inj (Option.some_inj.1 h)
  cases leading with
  | true => exact ofKeyword?_append_dot "" m
  | false =>
    have hrest : rest' = ts := by
      unfold symbol? at hsymbol
      split at hsymbol
      · split at hsymbol
        · exact absurd (Prod.mk.inj (Option.some_inj.1 hsymbol)).1 (by decide)
        · exact (Prod.mk.inj (Option.some_inj.1 hsymbol)).2.symm
      · exact (Prod.mk.inj (Option.some_inj.1 hsymbol)).2.symm
    rw [hrest] at hname
    exact ofKeyword?_of_name hstart hname

/-- A kind and a type name as they are read. -/
def TypeWritten (t : Option FieldKind × String) : Prop :=
  (∃ s, t.1 = some (.scalar s) ∧ t.2 = "") ∨
    (t.1 = none ∧ isWrittenType t.2 = true ∧ Scalar.ofKeyword? t.2 = none)

/-- What is no scalar is read as the name of a type. -/
theorem typeWritten_of_map_typeName {ts rest : List Token} {a : Option FieldKind × String}
    (hts : ∀ t ∈ ts, t.Valid) (hstart : NoKeyword ts)
    (h : (typeName.run ts).map (fun (n, rest) => ((none, n), rest)) = some (a, rest)) :
    TypeWritten a ∧ ∀ t ∈ rest, t.Valid := by
  obtain ⟨⟨n, rest'⟩, hn, heq⟩ := Option.map_eq_some_iff.1 h
  obtain ⟨rfl, rfl⟩ := Prod.mk.inj heq
  obtain ⟨hwritten, hrest⟩ := reads_typeName hts hn
  exact ⟨Or.inr ⟨rfl, hwritten, ofKeyword?_of_typeName hstart hn⟩, hrest⟩

theorem reads_type : type.Reads TypeWritten := by
  intro ts a rest hts h
  unfold type at h
  split at h
  · split at h
    · rename_i s _
      obtain ⟨rfl, rfl⟩ := Prod.mk.inj (Option.some_inj.1 h)
      exact ⟨Or.inl ⟨s, rfl, rfl⟩, fun t ht => hts t (List.mem_cons_of_mem _ ht)⟩
    · rename_i hnone
      refine typeWritten_of_map_typeName hts (fun w rest heq => ?_) h
      rw [← Token.word.inj (List.cons.inj heq).1]
      exact hnone
  · rename_i hword
    exact typeWritten_of_map_typeName hts (fun w rest heq => absurd heq (hword w rest)) h

theorem reads_peek : peek.Reads fun _ => True := by
  intro ts a rest hts h
  obtain ⟨-, rfl⟩ := Prod.mk.inj (Option.some_inj.1 h)
  exact ⟨trivial, hts⟩

theorem reads_fieldType : fieldType.Reads TypeWritten := by
  unfold fieldType
  refine reads_peek.bind fun next _ => ?_
  exact (reads_guard _).bind fun _ _ => reads_type

theorem reads_label? : label?.Reads fun _ => True := by
  unfold label?
  refine (reads_keyword? "optional").bind fun a _ => ?_
  split
  · exact Reads.pure trivial
  · refine (reads_keyword? "required").bind fun b _ => ?_
    split
    · exact Reads.pure trivial
    · refine (reads_keyword? "repeated").bind fun c _ => ?_
      split
      · exact Reads.pure trivial
      · exact Reads.pure trivial

end Phrase

end Proto
end SchemaPage
