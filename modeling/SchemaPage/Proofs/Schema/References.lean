import SchemaPage.Page.Document
import SchemaPage.Proofs.Page.Blocks
import SchemaPage.Proofs.Proto.Types

/-!
# Type names in a schema file

A declaration refers to no other types than those that its descriptor writes down, although fields
are gathered into groups and map entries are folded back on the way.  Only a message that is marked
as a map entry by hand, and has no key or no value, adds the empty name.

* `MessageDescriptor.entryOf?_eq_some_iff`: the fields that are taken for maps.
* `Placed.field_or_oneof_of_mem_members`: the members of a message, and what stands in its groups.
* `FileDescriptor.mem_writtenTypes_of_mem_references`: where the references of a declaration come
  from.
-/

namespace SchemaPage
namespace Proto

/-! ## Places -/

mutual

theorem MessageDescriptor.message_mem_within_of_mem_placed : ∀ {m : MessageDescriptor}
    {scope : Option String} {path : List Nat} {p : Placed},
    p ∈ m.placed scope path → p.message ∈ m.within
  | ⟨_, _, _, _, _, _, _, _, _, _, _⟩, _, _, _, h => by
    unfold MessageDescriptor.placed at h
    unfold MessageDescriptor.within
    rcases List.mem_cons.1 h with rfl | h
    · exact List.mem_cons_self
    · exact List.mem_cons_of_mem _ (message_mem_withinAll_of_mem_placedAll h)

theorem message_mem_withinAll_of_mem_placedAll : ∀ {ms : List MessageDescriptor}
    {admitted : String → Bool} {scope : Option String} {path : List Nat} {index : Nat}
    {p : Placed}, p ∈ placedAll admitted scope path index ms → p.message ∈ withinAll ms
  | [], _, _, _, _, _, h => by
    unfold placedAll at h
    exact absurd h List.not_mem_nil
  | m :: ms, _, _, _, _, _, h => by
    unfold placedAll at h
    unfold withinAll
    rcases List.mem_append.1 h with h | h
    · split at h
      · exact List.mem_append_left _ (MessageDescriptor.message_mem_within_of_mem_placed h)
      · exact absurd h List.not_mem_nil
    · exact List.mem_append_right _ (message_mem_withinAll_of_mem_placedAll h)

end

/-- The message of a place stands in the file. -/
theorem FileDescriptor.message_mem_allMessages {f : FileDescriptor} {p : Placed}
    (h : p ∈ f.placed) : p.message ∈ f.allMessages := by
  obtain ⟨⟨m, index⟩, hm, hp⟩ := List.mem_flatMap.1 h
  exact List.mem_flatMap_of_mem (List.fst_mem_of_mem_zipIdx hm)
    (MessageDescriptor.message_mem_within_of_mem_placed hp)

/-! ## Map entries -/

namespace MessageDescriptor

variable {m n : MessageDescriptor} {name : String}

/-- What is found as a map entry is one, of that name. -/
theorem mem_of_entryNamed? (h : m.entryNamed? name = some n) :
    n ∈ m.nested ∧ n.mapEntry = true ∧ n.name = name := by
  unfold entryNamed? at h
  obtain ⟨hnested, hmark⟩ :=
    List.mem_filter.1 (List.mem_reverse.1 (List.mem_of_find?_eq_some h))
  have hname := List.find?_some h
  exact ⟨hnested, hmark, beq_iff_eq.1 hname⟩

/-- A map entry of a message is found under its name. -/
theorem exists_entryNamed? (hn : n ∈ m.nested) (hmark : n.mapEntry = true) :
    ∃ entry, m.entryNamed? n.name = some entry := by
  unfold entryNamed?
  rw [← Option.isSome_iff_exists, List.find?_isSome]
  exact ⟨n, List.mem_reverse.2 (List.mem_filter.2 ⟨hn, hmark⟩), beq_self_eq_true n.name⟩

/-- When a field is taken for a map, and with which entries. -/
theorem entryOf?_eq_some_iff {f : FieldDescriptor} {entry : MessageDescriptor} :
    m.entryOf? f = some entry ↔ f.label = .repeated ∧ f.kind = some .message ∧
      m.entryNamed? (lastPart f.typeName) = some entry := by
  unfold entryOf?
  rw [Option.ite_none_right_eq_some, and_assoc]

end MessageDescriptor

/-! ## Members -/

namespace Placed

variable {locations : List Location} {dialect : Dialect} {p : Placed}

theorem fst_mem_fields {f : FieldDescriptor} {index : Nat}
    (h : (f, index) ∈ p.message.fields.zipIdx) : f ∈ p.message.fields :=
  List.fst_mem_of_mem_zipIdx h

/-- The members of a message are fields and groups. -/
theorem field_or_oneof_of_mem_members {x : Field} (h : x ∈ p.members locations dialect) :
    (∃ inGroup index, ∃ f ∈ p.message.fields, x = p.field locations dialect inGroup f index) ∨
      ∃ oneof, x = p.oneof locations dialect oneof := by
  obtain ⟨⟨f, index⟩, hf, hx⟩ := List.mem_flatMap.1 h
  simp only at hx
  unfold memberAt at hx
  split at hx
  · exact Or.inl ⟨false, index, f, fst_mem_fields hf, List.mem_singleton.1 hx⟩
  · split at hx
    · exact absurd hx List.not_mem_nil
    · exact Or.inr ⟨_, List.mem_singleton.1 hx⟩

theorem ownOneofs_field (inGroup : Bool) (f : FieldDescriptor) (index : Nat) :
    (p.field locations dialect inGroup f index).ownOneofs = [] := by
  unfold field
  split
  · unfold Field.ownOneofs
    rfl
  · unfold Field.ownOneofs
    rfl

/-- The members of a group have no groups. -/
theorem oneofs_map_field (l : List (FieldDescriptor × Nat)) :
    Field.oneofs (l.map fun (f, index) => p.field locations dialect true f index) = [] := by
  induction l with
  | nil => exact Field.oneofs_nil
  | cons f l ih =>
    rw [List.map_cons, Field.oneofs_cons, ih, ownOneofs_field, List.append_nil]

/-- The groups of a message hold fields only. -/
theorem field_of_mem_oneofs {group : Oneof} {x : Field}
    (h : group ∈ Field.oneofs (p.members locations dialect)) (hx : x ∈ group.members) :
    ∃ inGroup index, ∃ f ∈ p.message.fields, x = p.field locations dialect inGroup f index := by
  have hall : ∀ xs : List Field, (∀ y ∈ xs, y ∈ p.members locations dialect) →
      group ∈ Field.oneofs xs →
        ∃ inGroup index, ∃ f ∈ p.message.fields, x = p.field locations dialect inGroup f index := by
    intro xs
    induction xs with
    | nil => exact fun _ h => absurd h (by rw [Field.oneofs_nil]; exact List.not_mem_nil)
    | cons y ys ih =>
      intro hsub h
      rw [Field.oneofs_cons] at h
      rcases List.mem_append.1 h with h | h
      · rcases field_or_oneof_of_mem_members (hsub y List.mem_cons_self) with
          ⟨inGroup, index, f, -, rfl⟩ | ⟨position, rfl⟩
        · rw [ownOneofs_field] at h
          exact absurd h List.not_mem_nil
        · unfold oneof Field.ownOneofs at h
          rw [oneofs_map_field] at h
          obtain rfl := List.mem_singleton.1 h
          obtain ⟨⟨f, index⟩, hf, rfl⟩ := List.mem_map.1 hx
          exact ⟨true, index, f, fst_mem_fields (List.mem_filter.1 hf).1, rfl⟩
      · exact ih (fun z hz => hsub z (List.mem_cons_of_mem y hz)) h
  exact hall _ (fun _ h => h) h

/-- A field refers to the type that it writes down, or to those of its map entry. -/
theorem mem_references_field {inGroup : Bool} {f : FieldDescriptor} {index : Nat} {w : String}
    (h : w ∈ (p.field locations dialect inGroup f index).references) :
    w = f.writtenType ∨ ∃ entry ∈ p.message.nested, entry.mapEntry = true ∧
      (w ∈ entry.writtenTypes ∨ w = "" ∧ entry.fields.length < 2) := by
  unfold field at h
  split at h
  · rename_i entry hentry
    obtain ⟨-, -, hnamed⟩ := MessageDescriptor.entryOf?_eq_some_iff.1 hentry
    obtain ⟨hnested, hmark, -⟩ := MessageDescriptor.mem_of_entryNamed? hnamed
    have hpart : ∀ i < 2, w = (entry.fields[i]?.map FieldDescriptor.writtenType).getD "" →
        w ∈ entry.writtenTypes ∨ w = "" ∧ entry.fields.length < 2 := by
      intro i hi hw
      cases hfield : entry.fields[i]? with
      | none =>
        rw [hfield] at hw
        have hlength := List.getElem?_eq_none_iff.1 hfield
        exact Or.inr ⟨hw, by omega⟩
      | some part =>
        rw [hfield] at hw
        rw [hw]
        exact Or.inl (List.mem_map_of_mem (List.mem_of_getElem? hfield))
    refine Or.inr ⟨entry, hnested, hmark, ?_⟩
    rcases List.mem_cons.1 h with h | h
    · exact hpart 0 (by omega) h
    · exact hpart 1 (by omega) (List.mem_singleton.1 h)
  · exact Or.inl (List.mem_singleton.1 h)

end Placed

/-! ## References -/

namespace FileDescriptor

variable {f : FileDescriptor}

/-- The member for a field refers to types that the file writes down, or to the empty name where a
map entry has no key or no value. -/
theorem mem_writtenTypes_of_mem_field {p : Placed} (hp : p ∈ f.placed) {fd : FieldDescriptor}
    (hfd : fd ∈ p.message.fields) {locations : List Location} {dialect : Dialect} {inGroup : Bool}
    {index : Nat} {w : String} (hw : w ∈ (p.field locations dialect inGroup fd index).references) :
    w ∈ f.writtenTypes ∨
      w = "" ∧ ∃ m ∈ f.allMessages, m.mapEntry = true ∧ m.fields.length < 2 := by
  have hplace := message_mem_allMessages hp
  rcases Placed.mem_references_field hw with rfl | ⟨entry, hentry, hmark, hw⟩
  · exact Or.inl (List.mem_append_left _
      (List.mem_flatMap_of_mem hplace (List.mem_map_of_mem hfd)))
  · have hmem := nested_mem_allMessages hplace hentry
    rcases hw with hw | ⟨rfl, hlength⟩
    · exact Or.inl (List.mem_append_left _ (List.mem_flatMap_of_mem hmem hw))
    · exact Or.inr ⟨rfl, entry, hmem, hmark, hlength⟩

/-- A declaration refers to types that its file writes down, or to the empty name where a map entry
has no key or no value. -/
theorem mem_writtenTypes_of_mem_references {ownership : Ownership} {d : Declaration}
    {options : PageOptions} {w : String}
    (hd : d ∈ (SchemaFile.ofDescriptor ownership f).allDeclarations)
    (hw : w ∈ d.references options) :
    w ∈ f.writtenTypes ∨
      w = "" ∧ ∃ m ∈ f.allMessages, m.mapEntry = true ∧ m.fields.length < 2 := by
  have hd := SchemaFile.mem_allDeclarations_iff.1 hd
  cases hkind : d.kind with
  | service =>
    rw [hkind] at hd
    obtain ⟨s, hs, rfl⟩ := List.mem_map.1 hd
    obtain ⟨⟨sd, index⟩, hsd, rfl⟩ := List.mem_map.1 hs
    obtain ⟨r, hr, hw⟩ := List.mem_flatMap.1 hw
    obtain ⟨⟨md, index'⟩, hmd, rfl⟩ := List.mem_map.1 (MethodOrder.mem_of_mem_arrange hr)
    exact Or.inl (List.mem_append_right _
      (List.mem_flatMap_of_mem (List.fst_mem_of_mem_zipIdx hsd)
        (List.mem_flatMap_of_mem (List.fst_mem_of_mem_zipIdx hmd) hw)))
  | enumeration =>
    rw [hkind] at hd
    obtain ⟨e, -, rfl⟩ := List.mem_map.1 hd
    exact absurd hw List.not_mem_nil
  | message =>
    rw [hkind] at hd
    obtain ⟨m, hm, rfl⟩ := List.mem_map.1 hd
    obtain ⟨p, hp, rfl⟩ := List.mem_map.1 hm
    obtain ⟨fields, hfields, x, hx, hw⟩ := (Declaration.mem_references_message rfl).1 hw
    have hx := FieldOrder.mem_of_mem_arrange hx
    -- what refers to a type is a field of the message, alone or in a group, and not the group
    have hfield : ∃ inGroup index, ∃ fd ∈ p.message.fields,
        x = p.field f.locations f.dialect inGroup fd index := by
      rcases List.mem_cons.1 hfields with rfl | hfields
      · rcases Placed.field_or_oneof_of_mem_members hx with hfield | ⟨oneof, rfl⟩
        · exact hfield
        · exact absurd hw List.not_mem_nil
      · obtain ⟨group, hgroup, rfl⟩ := List.mem_map.1 hfields
        exact Placed.field_of_mem_oneofs hgroup hx
    obtain ⟨inGroup, index, fd, hfd, rfl⟩ := hfield
    exact mem_writtenTypes_of_mem_field hp hfd hw

end FileDescriptor

end Proto
end SchemaPage
