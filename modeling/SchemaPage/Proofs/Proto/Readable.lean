import SchemaPage.Proofs.Proto.Parsed
import SchemaPage.Proofs.Proto.Types

/-!
# Descriptors that can be made out

The well-known files are linked already, and every other file is as it is read.  What all of them
have in common can be checked: names are words, a type that is written down is a scalar or well
formed, and a map entry has a key and a value.

* `FileDescriptor.isReadable`: the check.
* `FileDescriptor.IsWritten.isReadable`: what is read passes it.
* `FileDescriptor.keyword_or_isWrittenType_of_isReadable`: what a file writes down is well formed.
* `FileDescriptor.isDotted_of_mem_typeNames`: what it declares has well-formed names.
-/

namespace SchemaPage
namespace Proto

/-- The field has a scalar and no type name, or a type name that is well formed. -/
def FieldDescriptor.isReadable (f : FieldDescriptor) : Bool :=
  match f.kind with
  | some (.scalar _) => f.typeName == ""
  | _ => isWrittenType f.typeName

/-- Names and types in the message are well formed, and so is a map entry, the messages inside it
apart. -/
def MessageDescriptor.isReadable (m : MessageDescriptor) : Bool :=
  isWord m.name && m.fields.all (·.isReadable) && m.enums.all (fun e => isWord e.name) &&
    (!m.mapEntry || m.fields.length == 2)

/-- Names and types in the file are well formed, and so are its map entries. -/
def FileDescriptor.isReadable (f : FileDescriptor) : Bool :=
  (f.package == "" || isDotted f.package) &&
    f.allMessages.all (·.isReadable) &&
    f.enums.all (fun e => isWord e.name) &&
    f.services.all fun s => s.methods.all fun m => isWrittenType m.input && isWrittenType m.output

/-! ## What is read -/

theorem FieldDescriptor.IsWritten.isReadable {f : FieldDescriptor} {entries : List String}
    (h : f.IsWritten entries) : f.isReadable = true := by
  unfold IsWritten at h
  unfold FieldDescriptor.isReadable
  split at h
  · rename_i s hkind
    rw [hkind]
    exact beq_iff_eq.2 h
  · rename_i hkind
    rw [hkind]
    exact isWrittenType_of_isDotted (isDotted_of_isWord h.2.1)
  · rename_i hkind
    rw [hkind]
    exact isWrittenType_of_isDotted (isDotted_of_isWord h.1)
  · exact absurd h id
  · rename_i hkind
    rw [hkind]
    exact h.1

theorem MessageDescriptor.IsWritten.isReadable {m : MessageDescriptor} (h : m.IsWritten) :
    m.isReadable = true := by
  have hentry : (!m.mapEntry || m.fields.length == 2) = true := by
    cases hm : m.mapEntry with
    | false => rfl
    | true =>
      obtain ⟨key, value, hfields⟩ := h.entry hm
      rw [hfields]
      rfl
  unfold MessageDescriptor.isReadable
  rw [h.name, hentry, List.all_eq_true.2 fun f hf => (h.fields f hf).isReadable,
    List.all_eq_true.2 h.enums]
  rfl

theorem FileDescriptor.IsWritten.isReadable {f : FileDescriptor} (h : f.IsWritten) :
    f.isReadable = true := by
  have hpackage : (f.package == "" || isDotted f.package) = true := by
    rw [Bool.or_eq_true, beq_iff_eq]
    exact h.package
  have hmessages : f.allMessages.all (·.isReadable) = true := List.all_eq_true.2 fun n hn => by
    obtain ⟨m, hm, hn⟩ := List.mem_flatMap.1 hn
    exact (h.messages m hm n hn).isReadable
  have hmethods : (f.services.all fun s => s.methods.all fun m =>
      isWrittenType m.input && isWrittenType m.output) = true :=
    List.all_eq_true.2 fun s hs => List.all_eq_true.2 fun m hm =>
      Bool.and_eq_true_iff.2 (h.methods s hs m hm)
  unfold FileDescriptor.isReadable
  rw [hpackage, hmessages, hmethods, List.all_eq_true.2 h.enums]
  rfl

/-! ## What is readable -/

/-- A readable field has a scalar, or a type name that it writes down. -/
theorem FieldDescriptor.writtenType_of_isReadable {f : FieldDescriptor}
    (h : f.isReadable = true) :
    (f.typeName = "" ∧ ∃ s, f.kind = some (.scalar s) ∧ f.writtenType = s.keyword) ∨
      isWrittenType f.typeName = true ∧ f.writtenType = f.typeName := by
  unfold isReadable at h
  unfold writtenType
  split at h
  · rename_i s hkind
    have hempty : f.typeName = "" := beq_iff_eq.1 h
    refine Or.inl ⟨hempty, s, hkind, ?_⟩
    rw [hkind, Option.getD_some, hempty]
    rfl
  · refine Or.inr ⟨h, ?_⟩
    have hne := ne_empty_of_isWrittenType h
    split
    · exact if_neg hne
    · rfl

theorem MessageDescriptor.isReadable_iff {m : MessageDescriptor} :
    m.isReadable = true ↔ isWord m.name = true ∧ (∀ f ∈ m.fields, f.isReadable = true) ∧
      (∀ e ∈ m.enums, isWord e.name = true) ∧ (m.mapEntry = true → m.fields.length = 2) := by
  unfold isReadable
  rw [Bool.and_eq_true, Bool.and_eq_true, Bool.and_eq_true, List.all_eq_true, List.all_eq_true,
    Bool.or_eq_true, Bool.not_eq_true', beq_iff_eq, and_assoc, and_assoc]
  refine and_congr_right fun _ => and_congr_right fun _ => and_congr_right fun _ => ?_
  cases m.mapEntry <;> simp

theorem FileDescriptor.isReadable_iff {f : FileDescriptor} :
    f.isReadable = true ↔ (f.package = "" ∨ isDotted f.package = true) ∧
      (∀ m ∈ f.allMessages, m.isReadable = true) ∧ (∀ e ∈ f.enums, isWord e.name = true) ∧
      ∀ s ∈ f.services, ∀ m ∈ s.methods, m.IsWritten := by
  unfold isReadable
  rw [Bool.and_eq_true, Bool.and_eq_true, Bool.and_eq_true, List.all_eq_true, List.all_eq_true,
    List.all_eq_true, Bool.or_eq_true, beq_iff_eq, and_assoc, and_assoc]
  refine and_congr_right fun _ => and_congr_right fun _ => and_congr_right fun _ => ?_
  refine forall₂_congr fun s _ => ?_
  rw [List.all_eq_true]
  exact forall₂_congr fun m _ => Bool.and_eq_true_iff

/-- What is written down in a readable file is a scalar or well formed. -/
theorem FileDescriptor.keyword_or_isWrittenType_of_isReadable {f : FileDescriptor}
    (h : f.isReadable = true) {w : String} (hw : w ∈ f.writtenTypes) :
    (∃ s : Scalar, w = s.keyword) ∨ isWrittenType w = true := by
  obtain ⟨-, hmessages, -, hmethods⟩ := isReadable_iff.1 h
  rcases List.mem_append.1 hw with hw | hw
  · obtain ⟨m, hm, hw⟩ := List.mem_flatMap.1 hw
    obtain ⟨fd, hfd, rfl⟩ := List.mem_map.1 hw
    have hfield := (MessageDescriptor.isReadable_iff.1 (hmessages m hm)).2.1 fd hfd
    rcases FieldDescriptor.writtenType_of_isReadable hfield with ⟨-, s, -, hs⟩ | ⟨hwritten, heq⟩
    · exact Or.inl ⟨s, hs⟩
    · exact Or.inr (heq.symm ▸ hwritten)
  · obtain ⟨s, hs, hw⟩ := List.mem_flatMap.1 hw
    obtain ⟨m, hm, hw⟩ := List.mem_flatMap.1 hw
    obtain ⟨hinput, houtput⟩ := hmethods s hs m hm
    rcases List.mem_cons.1 hw with rfl | hw
    · exact Or.inr hinput
    · obtain rfl := List.mem_singleton.1 hw
      exact Or.inr houtput

mutual

theorem MessageDescriptor.isDotted_of_mem_typeNames : ∀ {m : MessageDescriptor} {scope n : String},
    (∀ o ∈ m.within, o.isReadable = true) → (scope = "" ∨ isDotted scope = true) →
      n ∈ m.typeNames scope → isDotted n = true
  | ⟨name, _, nested, _, _, _, _, _, _, _, _⟩, scope, n, hm, hscope, hn => by
    obtain ⟨hname, -, henums, -⟩ :=
      MessageDescriptor.isReadable_iff.1 (hm _ (MessageDescriptor.mem_within_self _))
    have hown : isDotted (nameIn scope name) = true := isDotted_nameIn hscope hname
    rcases List.mem_append.1 hn with hn | hn
    · rcases List.mem_cons.1 hn with rfl | hn
      · exact hown
      · obtain ⟨e, he, rfl⟩ := List.mem_map.1 hn
        exact isDotted_nameIn (Or.inr hown) (henums e he)
    · exact isDotted_of_mem_typeNamesAll (fun o ho => hm o (List.mem_cons_of_mem _ ho))
        (Or.inr hown) hn

theorem isDotted_of_mem_typeNamesAll : ∀ {ms : List MessageDescriptor} {scope n : String},
    (∀ o ∈ withinAll ms, o.isReadable = true) → (scope = "" ∨ isDotted scope = true) →
      n ∈ typeNamesAll scope ms → isDotted n = true
  | [], _, _, _, _, hn => absurd hn List.not_mem_nil
  | m :: ms, _, _, hms, hscope, hn => by
    rcases List.mem_append.1 hn with hn | hn
    · exact MessageDescriptor.isDotted_of_mem_typeNames
        (fun o ho => hms o (List.mem_append_left _ ho)) hscope hn
    · exact isDotted_of_mem_typeNamesAll (fun o ho => hms o (List.mem_append_right _ ho)) hscope hn

end

/-- The types of a readable file have full names that are well formed. -/
theorem FileDescriptor.isDotted_of_mem_typeNames {f : FileDescriptor} (h : f.isReadable = true)
    {n : String} (hn : n ∈ f.typeNames) : isDotted n = true := by
  obtain ⟨hpackage, hmessages, henums, -⟩ := isReadable_iff.1 h
  rcases List.mem_append.1 hn with hn | hn
  · refine isDotted_of_mem_typeNamesAll (fun o ho => hmessages o ?_) hpackage hn
    rwa [allMessages, ← withinAll_eq]
  · obtain ⟨e, he, rfl⟩ := List.mem_map.1 hn
    exact isDotted_nameIn hpackage (henums e he)

end Proto

end SchemaPage
