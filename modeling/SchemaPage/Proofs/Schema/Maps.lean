import SchemaPage.Proofs.Schema.Members
import SchemaPage.Proofs.Source.Rendered

/-!
# The maps of a message

A map field has the type of a message that stands for the entries of the map and that is declared
inside the message of the field.  By this type it is known again.  But only the last part of the
type is looked at, and only in fields that are lists of messages.  So a list of messages that are
declared elsewhere under the name of an entry is taken for a map, and a field that is no list is not
taken for one, although it has the type of the entries.

* `Placed.Denotes`: the entries that the type of a field stands for.
* `Placed.Recognizes`: the member for a field is a map just where there are such entries.
* `Placed.Discerns`: the fields for which the last part of the type tells the same.
* `Placed.members_recognize_maps_iff`: these are the fields whose members are right.
* `exists_load_with_false_map`: not all fields of loaded graphs are among them.
-/

namespace SchemaPage

/-- Whether the field is neither a map nor a group. -/
def Field.isPlain : Field → Bool
  | plain _ => true
  | _ => false

namespace Proto

namespace MessageDescriptor

/-- The type of the keys in the entries of a map. -/
def keyType (entry : MessageDescriptor) : String :=
  (entry.fields[0]?.map FieldDescriptor.writtenType).getD ""

/-- The type of the values in the entries of a map. -/
def valueType (entry : MessageDescriptor) : String :=
  (entry.fields[1]?.map FieldDescriptor.writtenType).getD ""

end MessageDescriptor

namespace Placed

variable {locations : List Location} {dialect : Dialect} {p : Placed}

/-- The type of a field stands for the entries of a map of the same message: it is their full name
where names are linked, and their own name elsewhere. -/
def Denotes (linked : Bool) (package : String) (p : Placed) (f : FieldDescriptor)
    (entry : MessageDescriptor) : Prop :=
  entry ∈ p.message.nested ∧ entry.mapEntry = true ∧
    f.typeName = if linked then "." ++ nameIn (nameIn package p.name) entry.name else entry.name

/-- The member shows what a field is.  If the type of the field stands for the entries of a map, the
member is a map with the types of their keys and values; otherwise it is plain, with the type of the
field, and it tells whether the field is a list. -/
structure Recognizes (linked : Bool) (package : String) (p : Placed) (f : FieldDescriptor)
    (member : Field) : Prop where
  map : ∀ entry, p.Denotes linked package f entry →
    ∃ m, member = .map m ∧ m.keyType = entry.keyType ∧ m.valueType = entry.valueType
  plain : (∀ entry, ¬ p.Denotes linked package f entry) →
    ∃ m, member = .plain m ∧ m.typeName = f.writtenType ∧
      (m.repeated = true ↔ f.label = .repeated)

/-- The last part of the type is enough to tell whether a field is a map, and of what. -/
structure Discerns (linked : Bool) (package : String) (p : Placed) (f : FieldDescriptor) :
    Prop where
  /-- A list of messages whose type ends in the name of some entries has the type of some
  entries. -/
  own : f.label = .repeated → f.kind = some .message →
    (∃ entry ∈ p.message.nested, entry.mapEntry = true ∧ entry.name = lastPart f.typeName) →
    ∃ entry, p.Denotes linked package f entry
  /-- A field with the type of some entries is a list of messages, and its type ends in such a
  name. -/
  listed : ∀ entry, p.Denotes linked package f entry →
    f.label = .repeated ∧ f.kind = some .message ∧
      ∃ other ∈ p.message.nested, other.mapEntry = true ∧ other.name = lastPart f.typeName
  /-- Entries of one name have the keys and values of the last of them. -/
  agreed : ∀ entry last, p.Denotes linked package f entry →
    p.message.entryNamed? (lastPart f.typeName) = some last →
    last.keyType = entry.keyType ∧ last.valueType = entry.valueType

/-- The member for a field that is taken for a map. -/
theorem field_of_entryOf? {f : FieldDescriptor} {last : MessageDescriptor}
    (h : p.message.entryOf? f = some last) (locations : List Location) (dialect : Dialect)
    (inGroup : Bool) (index : Nat) :
    ∃ m, p.field locations dialect inGroup f index = .map m ∧ m.keyType = last.keyType ∧
      m.valueType = last.valueType := by
  unfold field
  rw [h]
  exact ⟨_, rfl, rfl, rfl⟩

/-- The member for a field that is taken for no map. -/
theorem field_of_entryOf?_eq_none {f : FieldDescriptor} (h : p.message.entryOf? f = none)
    (locations : List Location) (dialect : Dialect) (inGroup : Bool) (index : Nat) :
    ∃ m, p.field locations dialect inGroup f index = .plain m ∧ m.typeName = f.writtenType ∧
      (m.repeated = true ↔ f.label = .repeated) := by
  unfold field
  rw [h]
  exact ⟨_, rfl, rfl, decide_eq_true_iff⟩

/-- The fields that are taken for maps. -/
theorem exists_entryOf?_iff {f : FieldDescriptor} :
    (∃ last, p.message.entryOf? f = some last) ↔ f.label = .repeated ∧ f.kind = some .message ∧
      ∃ entry ∈ p.message.nested, entry.mapEntry = true ∧ entry.name = lastPart f.typeName := by
  simp only [MessageDescriptor.entryOf?_eq_some_iff, exists_and_left]
  refine and_congr_right fun _ => and_congr_right fun _ => ?_
  constructor
  · rintro ⟨last, hlast⟩
    exact ⟨last, MessageDescriptor.mem_of_entryNamed? hlast⟩
  · rintro ⟨entry, hentry, hmark, hname⟩
    exact hname ▸ MessageDescriptor.exists_entryNamed? hentry hmark

/-- The member for a field shows what the field is exactly when the last part of its type tells
it. -/
theorem recognizes_field_iff {linked : Bool} {package : String} {inGroup : Bool}
    {f : FieldDescriptor}
    {index : Nat} : p.Recognizes linked package f (p.field locations dialect inGroup f index) ↔
      p.Discerns linked package f := by
  cases hentry : p.message.entryOf? f with
  | some last =>
    obtain ⟨m, hmember, hkey, hvalue⟩ :=
      field_of_entryOf? hentry locations dialect inGroup index
    obtain ⟨hlabel, hkind, hlast⟩ := MessageDescriptor.entryOf?_eq_some_iff.1 hentry
    rw [hmember]
    constructor
    · intro h
      refine ⟨fun _ _ _ => ?_, fun _ _ => exists_entryOf?_iff.1 ⟨last, hentry⟩, ?_⟩
      · by_contra hnone
        obtain ⟨_, hplain, -⟩ := h.plain (not_exists.1 hnone)
        exact absurd hplain nofun
      · intro entry other hdenotes hother
        obtain ⟨m', hm', hkey', hvalue'⟩ := h.map entry hdenotes
        obtain rfl := Field.map.inj hm'
        obtain rfl := Option.some_inj.1 (hlast.symm.trans hother)
        exact ⟨hkey.symm.trans hkey', hvalue.symm.trans hvalue'⟩
    · intro h
      refine ⟨fun entry hdenotes => ?_, fun hnone => ?_⟩
      · obtain ⟨hkey', hvalue'⟩ := h.agreed entry last hdenotes hlast
        exact ⟨m, rfl, hkey.trans hkey', hvalue.trans hvalue'⟩
      · obtain ⟨-, -, hnamed⟩ := exists_entryOf?_iff.1 ⟨last, hentry⟩
        obtain ⟨entry, hdenotes⟩ := h.own hlabel hkind hnamed
        exact absurd hdenotes (hnone entry)
  | none =>
    have hnot : ¬ ∃ last, p.message.entryOf? f = some last := by
      rintro ⟨last, hlast⟩
      exact absurd (hentry.symm.trans hlast) nofun
    rw [exists_entryOf?_iff] at hnot
    obtain ⟨m, hmember, htype, hrepeated⟩ :=
      field_of_entryOf?_eq_none hentry locations dialect inGroup index
    rw [hmember]
    constructor
    · intro h
      have hnone : ∀ entry, ¬ p.Denotes linked package f entry := by
        intro entry hdenotes
        obtain ⟨_, hmap, -⟩ := h.map entry hdenotes
        exact absurd hmap nofun
      exact ⟨fun hlabel hkind hnamed => absurd ⟨hlabel, hkind, hnamed⟩ hnot,
        fun entry hdenotes => absurd hdenotes (hnone entry),
        fun entry _ hdenotes => absurd hdenotes (hnone entry)⟩
    · exact fun h => ⟨fun entry hdenotes => absurd (h.listed entry hdenotes) hnot,
        fun _ => ⟨m, rfl, htype, hrepeated⟩⟩

/-- Every field of a message has its member, and this shows what the field is exactly when the last
part of its type tells it. -/
theorem members_recognize_maps_iff (locations : List Location) (dialect : Dialect) (linked : Bool)
    (package : String) (p : Placed) :
    ∃ leaves, leaves.Perm (Field.leaves (p.members locations dialect)) ∧
      List.Forall₂ (fun x leaf => p.Shows locations x leaf ∧
        (p.Recognizes linked package x.1 leaf ↔ p.Discerns linked package x.1))
        p.message.fields.zipIdx leaves := by
  refine ⟨_, (perm_leaves locations dialect p).symm, ?_⟩
  rw [List.forall₂_map_right_iff]
  exact List.forall₂_same.2 fun x _ => ⟨shows_field _ x, recognizes_field_iff⟩

end Placed

end Proto

/-- A file with a map, and with a list of messages that are declared elsewhere under the name of its
entries. -/
def namesakeTree : FileSystem :=
  let text := "message N \x7b message FooEntry \x7b\x7d \x7d message M \x7b " ++
    "map<string,int32> foo = 1; repeated N.FooEntry bar = 2; \x7d"
  { tree := .dir [("x.proto", .file text.toUTF8)], workingDir := [] }

open Proto in
/-- A list of messages is shown as a map that has nothing to do with it. -/
theorem exists_load_with_false_map :
    ¬ ∀ (fs : FileSystem) (sources : Sources) (g : Graph), (Graph.load fs sources).value = .ok g →
      ∀ f ∈ sources.descriptors fs, ∀ p ∈ f.placed,
        ∃ leaves, leaves.Perm (Field.leaves (p.members f.locations f.dialect)) ∧
          List.Forall₂ (fun x leaf => p.Shows f.locations x leaf ∧
            p.Recognizes (!sources.skipMissing) f.package x.1 leaf) p.message.fields.zipIdx
              leaves := by
  intro h
  have hload : (Graph.load namesakeTree strictSources).value.toOption.any (fun _ => true) =
      true := by
    decide +kernel
  obtain ⟨g, hload, -⟩ := Outcome.exists_ok_of_any hload
  -- The type of one field is no entry of its message, but what is shown under its number is a map.
  have hshown : (strictSources.descriptors namesakeTree).any (fun f => f.placed.any fun p =>
      p.message.fields.any fun x =>
        (p.message.nested.all fun entry =>
          x.typeName != "." ++ nameIn (nameIn f.package p.name) entry.name) &&
        (Field.leaves (p.members f.locations f.dialect)).all fun leaf =>
          leaf.firstTag != x.number || !leaf.isPlain) = true := by
    decide +kernel
  obtain ⟨f, hf, hany⟩ := List.any_eq_true.1 hshown
  obtain ⟨p, hp, hany⟩ := List.any_eq_true.1 hany
  obtain ⟨x, hx, hboth⟩ := List.any_eq_true.1 hany
  obtain ⟨hnested, hleaves⟩ := Bool.and_eq_true_iff.1 hboth
  obtain ⟨leaves, hperm, hall⟩ := h namesakeTree strictSources g hload f hf p hp
  obtain ⟨index, hindex⟩ := List.mem_iff_getElem?.1 hx
  obtain ⟨leaf, hleaf, hshows, hrecognizes⟩ :=
    Outcome.exists_right_of_forall₂ hall (List.mk_mem_zipIdx_iff_getElem?.2 hindex)
  obtain ⟨m, rfl, -⟩ := hrecognizes.plain fun entry hdenotes => by
    have hname := List.all_eq_true.1 hnested entry hdenotes.1
    exact bne_iff_ne.1 hname hdenotes.2.2
  have htag := List.all_eq_true.1 hleaves _ (hperm.mem_iff.1 hleaf)
  rw [hshows.number] at htag
  simp [Field.isPlain] at htag

end SchemaPage
