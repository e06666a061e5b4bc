import SchemaPage.Proofs.Graph.Resolve
import SchemaPage.Proofs.Proto.Written
import SchemaPage.Proto.Symbol
import SchemaPage.Schema.OfDescriptor

/-!
# The types of a file

The types of a file are its messages and enums, at any depth.  Each of them is a declaration of the
schema file, unless it stands for a map entry or inside one: those are folded back into map fields
and are declared nowhere.

* `FileDescriptor.writtenTypes`: the types that the fields and methods of a file write down.
* `FileDescriptor.typeNames`: the full names of the types of a file.
* `FileDescriptor.entryTypes`: those of the types that are folded back.
* `MessageDescriptor.perm_typeNames`: a type of a message is placed or folded back.
* `FileDescriptor.perm_typeNames`: a type of a file is declared or folded back.
* `mem_declaredTypes_iff`: the declared types are the messages and the enums of the schema file.
-/

namespace SchemaPage

/-! ## Names in scopes -/

@[simp] theorem nameIn_empty (name : String) : nameIn "" name = name := rfl

theorem nameIn_of_ne {scope : String} (h : scope ≠ "") (name : String) :
    nameIn scope name = scope ++ "." ++ name := if_neg h

theorem nameIn_ne_empty (scope : String) {name : String} (h : name ≠ "") :
    nameIn scope name ≠ "" := by
  unfold nameIn
  split
  · exact h
  · intro hempty
    exact h (String.append_eq_empty_iff.1 hempty).2

/-- A name in a scope that has a name itself. -/
theorem nameIn_nameIn (scope : String) {outer : String} (h : outer ≠ "") (name : String) :
    nameIn scope (outer ++ "." ++ name) = nameIn (nameIn scope outer) name := by
  rw [nameIn_of_ne (nameIn_ne_empty scope h)]
  by_cases hscope : scope = ""
  · rw [hscope, nameIn_empty, nameIn_empty]
  · rw [nameIn_of_ne hscope, nameIn_of_ne hscope]
    simp only [String.append_assoc]

namespace Proto

theorem isDotted_nameIn {scope name : String} (hscope : scope = "" ∨ isDotted scope = true)
    (hname : isWord name = true) : isDotted (nameIn scope name) = true := by
  unfold nameIn
  split
  · exact isDotted_of_isWord hname
  · rename_i hne
    exact isDotted_append (hscope.resolve_left hne) (isDotted_of_isWord hname)

/-! ## Types that are written down -/

/-- The types that the fields of the message write down. -/
def MessageDescriptor.writtenTypes (m : MessageDescriptor) : List String :=
  m.fields.map FieldDescriptor.writtenType

/-- The types that the methods of the service write down. -/
def ServiceDescriptor.writtenTypes (s : ServiceDescriptor) : List String :=
  s.methods.flatMap fun m => [m.input, m.output]

/-- The types that the fields and the methods of the file write down. -/
def FileDescriptor.writtenTypes (f : FileDescriptor) : List String :=
  f.allMessages.flatMap MessageDescriptor.writtenTypes ++
    f.services.flatMap ServiceDescriptor.writtenTypes

/-! ## Types that are declared -/

mutual

/-- The full names of the message and of all types inside it. -/
def MessageDescriptor.typeNames (scope : String) : MessageDescriptor → List String
  | m@⟨_, _, nested, _, _, _, _, _, _, _, _⟩ =>
    let own := nameIn scope m.name
    own :: m.enums.map (fun e => nameIn own e.name) ++ typeNamesAll own nested

/-- The full names of some messages and of all types inside them. -/
def typeNamesAll (scope : String) : List MessageDescriptor → List String
  | [] => []
  | m :: rest => m.typeNames scope ++ typeNamesAll scope rest

end

mutual

/-- The full names of the types inside the message that stand for its map entries or for those of a
message inside it, and of the types inside them. -/
def MessageDescriptor.entryTypes (scope : String) : MessageDescriptor → List String
  | m@⟨_, _, nested, _, _, _, _, _, _, _, _⟩ =>
    entryTypesAll (fun n => (m.entryNamed? n).isNone) (nameIn scope m.name) nested

/-- The same for the messages of a list, of which those whose names are not admitted stand for map
entries. -/
def entryTypesAll (admitted : String → Bool) (scope : String) : List MessageDescriptor → List String
  | [] => []
  | m :: rest =>
    (if admitted m.name then m.entryTypes scope else m.typeNames scope) ++
      entryTypesAll admitted scope rest

end

/-- The full names of the types that a message declares at its place. -/
def Placed.typeNames (package : String) (p : Placed) : List String :=
  nameIn package p.name ::
    p.message.enums.map fun e => nameIn package (scopedName (some p.name) e.name)

namespace FileDescriptor

/-- The full names of the types of the file. -/
def typeNames (f : FileDescriptor) : List String :=
  typeNamesAll f.package f.messages ++ f.enums.map fun e => nameIn f.package e.name

/-- The full names of the types of the file that are folded back into map fields. -/
def entryTypes (f : FileDescriptor) : List String :=
  f.messages.flatMap (MessageDescriptor.entryTypes f.package)

end FileDescriptor

theorem MessageDescriptor.typeNames_eq (scope : String) (m : MessageDescriptor) :
    m.typeNames scope = nameIn scope m.name ::
      m.enums.map (fun e => nameIn (nameIn scope m.name) e.name) ++
        typeNamesAll (nameIn scope m.name) m.nested := by
  cases m
  rfl

theorem MessageDescriptor.entryTypes_eq (scope : String) (m : MessageDescriptor) :
    m.entryTypes scope =
      entryTypesAll (fun n => (m.entryNamed? n).isNone) (nameIn scope m.name) m.nested := by
  cases m
  rfl

theorem MessageDescriptor.placed_eq (scope : Option String) (path : List Nat)
    (m : MessageDescriptor) :
    m.placed scope path = ⟨m, scopedName scope m.name, path⟩ ::
      placedAll (fun n => (m.entryNamed? n).isNone) (some (scopedName scope m.name)) path 0
        m.nested := by
  cases m
  rfl

/-! ## Placed or folded back -/

theorem scopedName_ne_empty (scope : Option String) {name : String} (h : name ≠ "") :
    scopedName scope name ≠ "" := by
  cases scope with
  | none => exact h
  | some s =>
    intro hempty
    exact h (String.append_eq_empty_iff.1 hempty).2

mutual

/-- A type of a message is placed or folded back, and never both. -/
theorem MessageDescriptor.perm_typeNames (package : String) : ∀ (m : MessageDescriptor)
    (scope : Option String) (full : String) (path : List Nat),
    (∀ x, nameIn package (scopedName scope x) = nameIn full x) →
    (∀ n ∈ m.within, n.name ≠ "") →
    (m.typeNames full).Perm
      ((m.placed scope path).flatMap (Placed.typeNames package) ++ m.entryTypes full)
  | ⟨name, fields, nested, enums, oneofs, extensions, ranges, reserved, names, entry, options⟩,
    scope, full, path, hfull, hne => by
    have hname : name ≠ "" := hne _ (MessageDescriptor.mem_within_self _)
    have hown : ∀ x, nameIn package (scopedName (some (scopedName scope name)) x) =
        nameIn (nameIn full name) x := fun x => by
      rw [← hfull name]
      exact nameIn_nameIn package (scopedName_ne_empty scope hname) x
    have hnested := perm_typeNamesAll package nested
      (fun n => (MessageDescriptor.entryNamed?
        ⟨name, fields, nested, enums, oneofs, extensions, ranges, reserved, names, entry, options⟩
        n).isNone)
      (scopedName scope name) (nameIn full name) path 0 hown fun n hn o ho => by
        refine hne o ?_
        rw [MessageDescriptor.within_eq]
        exact List.mem_cons_of_mem _ (List.mem_flatMap_of_mem hn ho)
    rw [MessageDescriptor.typeNames_eq, MessageDescriptor.placed_eq,
      MessageDescriptor.entryTypes_eq, List.flatMap_cons, List.append_assoc]
    have hhead : nameIn full name :: enums.map (fun e => nameIn (nameIn full name) e.name) =
        Placed.typeNames package ⟨⟨name, fields, nested, enums, oneofs, extensions, ranges,
          reserved, names, entry, options⟩, scopedName scope name, path⟩ := by
      unfold Placed.typeNames
      rw [hfull]
      exact congrArg _ (List.map_congr_left fun e _ => (hown e.name).symm)
    exact (List.Perm.of_eq hhead).append hnested

/-- The same for the messages of a list. -/
theorem perm_typeNamesAll (package : String) : ∀ (ms : List MessageDescriptor)
    (admitted : String → Bool) (scope full : String) (path : List Nat) (index : Nat),
    (∀ x, nameIn package (scopedName (some scope) x) = nameIn full x) →
    (∀ m ∈ ms, ∀ n ∈ m.within, n.name ≠ "") →
    (typeNamesAll full ms).Perm
      ((placedAll admitted (some scope) path index ms).flatMap (Placed.typeNames package) ++
        entryTypesAll admitted full ms)
  | [], _, _, _, _, _, _, _ => by
    unfold typeNamesAll placedAll entryTypesAll
    exact List.Perm.refl _
  | m :: ms, admitted, scope, full, path, index, hfull, hne => by
    have hms := perm_typeNamesAll package ms admitted scope full path (index + 1) hfull
      fun n hn => hne n (List.mem_cons_of_mem m hn)
    unfold typeNamesAll placedAll entryTypesAll
    rw [List.flatMap_append]
    by_cases hadm : admitted m.name = true
    · rw [if_pos hadm, if_pos hadm]
      have hm := MessageDescriptor.perm_typeNames package m (some scope) full
        (childPath path .messageNested index) hfull (hne m List.mem_cons_self)
      refine (hm.append hms).trans ?_
      simp only [List.append_assoc]
      refine List.Perm.append_left _ ?_
      rw [← List.append_assoc, ← List.append_assoc]
      exact List.Perm.append_right _ List.perm_append_comm
    · rw [if_neg hadm, if_neg hadm, List.flatMap_nil, List.nil_append]
      refine ((List.Perm.refl _).append hms).trans ?_
      rw [← List.append_assoc, ← List.append_assoc]
      exact List.Perm.append_right _ List.perm_append_comm

end

namespace FileDescriptor

/-- The full names of the types that the schema file of a descriptor declares. -/
def declaredTypes (f : FileDescriptor) : List String :=
  f.placed.flatMap (Placed.typeNames f.package) ++ f.enums.map fun e => nameIn f.package e.name

/-- The types of the messages of a file, whichever number they start with. -/
theorem perm_typeNamesAll_zipIdx (package : String) (ms : List MessageDescriptor) (index : Nat)
    (h : ∀ m ∈ ms, ∀ n ∈ m.within, n.name ≠ "") : (typeNamesAll package ms).Perm
      (((ms.zipIdx index).flatMap fun (m, index) =>
        m.placed none (childPath [] .fileMessage index)).flatMap (Placed.typeNames package) ++
      ms.flatMap (MessageDescriptor.entryTypes package)) := by
  induction ms generalizing index with
  | nil => exact List.Perm.refl _
  | cons m ms ih =>
    have hm := MessageDescriptor.perm_typeNames package m none package
      (childPath [] .fileMessage index) (fun _ => rfl) (h m List.mem_cons_self)
    have hms := ih (index + 1) fun n hn => h n (List.mem_cons_of_mem m hn)
    unfold typeNamesAll
    rw [List.zipIdx_cons, List.flatMap_cons, List.flatMap_cons, List.flatMap_append]
    refine (hm.append hms).trans ?_
    simp only [List.append_assoc]
    refine List.Perm.append_left _ ?_
    rw [← List.append_assoc, ← List.append_assoc]
    exact List.Perm.append_right _ List.perm_append_comm

/-- A type of a file is declared or folded back, and never both. -/
theorem perm_typeNames {f : FileDescriptor} (h : ∀ m ∈ f.messages, ∀ n ∈ m.within, n.name ≠ "") :
    f.typeNames.Perm (f.declaredTypes ++ f.entryTypes) := by
  unfold typeNames declaredTypes entryTypes placed
  refine ((perm_typeNamesAll_zipIdx f.package f.messages 0 h).append (List.Perm.refl _)).trans ?_
  rw [List.append_assoc, List.append_assoc]
  exact List.Perm.append_left _ List.perm_append_comm

end FileDescriptor

/-! ## Declarations -/

/-- Positions do not matter to what is made of the elements alone. -/
theorem map_zipIdx_fst {α β : Type} (f : α → β) (l : List α) (start : Nat) :
    (l.zipIdx start).map (fun p => f p.1) = l.map f := by
  have h : (l.zipIdx start).map (f ∘ Prod.fst) = (l.zipIdx start |>.map Prod.fst).map f :=
    List.map_map.symm
  rw [List.zipIdx_map_fst] at h
  exact h

section Declared

variable (ownership : Ownership) (f : FileDescriptor)

theorem names_messages :
    (SchemaFile.ofDescriptor ownership f).messages.map Message.name = f.placed.map Placed.name := by
  unfold SchemaFile.ofDescriptor
  rw [List.map_map]
  rfl

theorem names_enums :
    (SchemaFile.ofDescriptor ownership f).enums.map EnumDecl.name =
      f.enums.map EnumDescriptor.name ++ f.placed.flatMap fun p =>
        p.message.enums.map fun e => scopedName (some p.name) e.name := by
  unfold SchemaFile.ofDescriptor
  rw [List.map_append, List.map_map, List.map_flatMap]
  congr 1
  · exact map_zipIdx_fst EnumDescriptor.name f.enums 0
  · refine List.flatMap_congr fun p _ => ?_
    unfold Placed.enums
    rw [List.map_map]
    exact map_zipIdx_fst (fun e => scopedName (some p.name) e.name) p.message.enums 0

/-- The declared types are named after the messages and the enums of the schema file. -/
theorem mem_declaredTypes_iff_names {name : String} :
    name ∈ f.declaredTypes ↔
      name ∈ ((SchemaFile.ofDescriptor ownership f).messages.map Message.name).map
        (nameIn f.package) ∨
      name ∈ ((SchemaFile.ofDescriptor ownership f).enums.map EnumDecl.name).map
        (nameIn f.package) := by
  rw [names_messages, names_enums]
  unfold FileDescriptor.declaredTypes Placed.typeNames
  simp only [List.mem_append, List.mem_flatMap, List.mem_cons, List.mem_map, List.map_append,
    List.map_map, List.map_flatMap, Function.comp_def]
  constructor
  · rintro (⟨p, hp, rfl | ⟨e, he, rfl⟩⟩ | ⟨e, he, rfl⟩)
    · exact Or.inl ⟨p, hp, rfl⟩
    · exact Or.inr (Or.inr ⟨p, hp, e, he, rfl⟩)
    · exact Or.inr (Or.inl ⟨e, he, rfl⟩)
  · rintro (⟨p, hp, rfl⟩ | ⟨e, he, rfl⟩ | ⟨p, hp, e, he, rfl⟩)
    · exact Or.inl ⟨p, hp, Or.inl rfl⟩
    · exact Or.inr ⟨e, he, rfl⟩
    · exact Or.inl ⟨p, hp, Or.inr ⟨e, he, rfl⟩⟩

variable {ownership f}

/-- The messages and the enums of a schema file are its declared types. -/
theorem mem_declaredTypes_iff {name : String} :
    name ∈ f.declaredTypes ↔ ∃ d ∈ (SchemaFile.ofDescriptor ownership f).allDeclarations,
      d.kind ≠ .service ∧ d.fullName = name := by
  rw [mem_declaredTypes_iff_names ownership, List.map_map, List.map_map]
  constructor
  · rintro (h | h)
    · obtain ⟨m, hm, hname⟩ := List.mem_map.1 h
      exact ⟨⟨_, .message m⟩, SchemaFile.mem_allDeclarations_iff.2 (List.mem_map_of_mem hm), nofun,
        hname⟩
    · obtain ⟨e, he, hname⟩ := List.mem_map.1 h
      exact ⟨⟨_, .enumeration e⟩, SchemaFile.mem_allDeclarations_iff.2 (List.mem_map_of_mem he),
        nofun, hname⟩
  · rintro ⟨d, hd, hkind, hname⟩
    have hd := SchemaFile.mem_allDeclarations_iff.1 hd
    cases hk : d.kind with
    | service => exact absurd hk hkind
    | enumeration =>
      rw [hk] at hd
      obtain ⟨e, he, rfl⟩ := List.mem_map.1 hd
      exact Or.inr (List.mem_map.2 ⟨e, he, hname⟩)
    | message =>
      rw [hk] at hd
      obtain ⟨m, hm, rfl⟩ := List.mem_map.1 hd
      exact Or.inl (List.mem_map.2 ⟨m, hm, hname⟩)

end Declared

end Proto
end SchemaPage
