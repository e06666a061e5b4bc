import Mathlib.Data.List.Pairwise
import SchemaPage.Proofs.Outcome
import SchemaPage.Proofs.Proto.Types
import SchemaPage.Proto.Symbol

/-!
# The symbols of a file

What can be said of a symbol without looking into what it names: its name, its file, and what sort
of thing it names.  Linking changes nothing of that.

* `Symbol.Alike`: two symbols of which the same can be said.
* `Symbol.Apart`: symbols that can stand side by side.
* `FileDescriptor.file_of_mem_symbols`: the symbols of a file stand in it.
* `FileDescriptor.types_of_symbols`: the types of a file are its symbols that are types.
-/

namespace SchemaPage
namespace Proto

namespace Symbol

/-- The same can be said of two symbols, except for what they name. -/
structure Alike (s t : Symbol) : Prop where
  name : s.name = t.name
  file : s.file = t.file
  isPackage : s.isPackage = t.isPackage
  isMessage : s.isMessage = t.isMessage
  isType : s.isType = t.isType

theorem Alike.refl (s : Symbol) : s.Alike s := ⟨rfl, rfl, rfl, rfl, rfl⟩

theorem Alike.clashes {s s' t t' : Symbol} (h : s.Alike s') (h' : t.Alike t') :
    s.clashes t = s'.clashes t' := by
  unfold Symbol.clashes
  rw [h.name, h'.name, h.isPackage, h'.isPackage]

theorem alike_refl_all (l : List Symbol) : List.Forall₂ Alike l l :=
  List.forall₂_same.2 fun s _ => Alike.refl s

/-- A symbol for each name, of one sort each. -/
theorem alike_map {α β : Type} {f : α → Symbol} {g : β → Symbol} {R : α → β → Prop}
    (hfg : ∀ a b, R a b → (f a).Alike (g b)) {l : List α} {r : List β} (h : List.Forall₂ R l r) :
    List.Forall₂ Alike (l.map f) (r.map g) := by
  rw [List.forall₂_map_left_iff, List.forall₂_map_right_iff]
  exact h.imp hfg

/-! ## Clashes -/

/-- No two of the symbols clash. -/
def Apart (l : List Symbol) : Prop := l.Pairwise fun s t => s.clashes t = false

theorem apart_of_anyClash {l : List Symbol} (h : anyClash l = false) : Apart l := by
  induction l with
  | nil => exact List.Pairwise.nil
  | cons s l ih =>
    unfold anyClash at h
    rw [Bool.or_eq_false_iff] at h
    refine List.pairwise_cons.2 ⟨fun t ht => ?_, ih h.2⟩
    simpa using List.any_eq_false.1 h.1 t ht

theorem clashes_comm (s t : Symbol) : s.clashes t = t.clashes s := by
  unfold clashes
  rw [Bool.and_comm s.isPackage]
  congr 1
  exact Bool.eq_iff_iff.2 (by rw [beq_iff_eq, beq_iff_eq]; exact eq_comm)

/-- Symbols clash or not whatever it is that they name. -/
theorem Apart.of_alike {l l' : List Symbol} (h : Apart l) (halike : List.Forall₂ Alike l l') :
    Apart l' := by
  induction halike with
  | nil => exact List.Pairwise.nil
  | @cons s s' l l' hs htail ih =>
    obtain ⟨hhead, hrest⟩ := List.pairwise_cons.1 h
    refine List.pairwise_cons.2 ⟨fun t' ht' => ?_, ih hrest⟩
    obtain ⟨t, ht, htt'⟩ := Outcome.exists_left_of_forall₂ htail ht'
    rw [← hs.clashes htt']
    exact hhead t ht

/-- Symbols that can stand side by side are known by their names, packages apart. -/
theorem Apart.eq_of_name_eq {l : List Symbol} (h : Apart l) {s t : Symbol} (hs : s ∈ l)
    (ht : t ∈ l) (hname : s.name = t.name) (hpackage : s.isPackage = false) : s = t := by
  by_contra hne
  have hsymm : Std.Symm fun s t : Symbol => s.clashes t = false :=
    ⟨fun s t hst => by rwa [clashes_comm]⟩
  have hclash : s.clashes t = false := h.forall hs ht hne
  unfold clashes at hclash
  rw [hname, hpackage] at hclash
  simp at hclash

theorem isType_of_isMessage {s : Symbol} (h : s.isMessage = true) : s.isType = true := by
  unfold isType
  rw [h, Bool.true_or]

/-- A type is no package. -/
theorem isPackage_of_isType {s : Symbol} (h : s.isType = true) : s.isPackage = false := by
  unfold isPackage
  split
  · rename_i hkind
    unfold isType isMessage message? enumeration? at h
    rw [hkind] at h
    exact absurd h (by decide)
  · rfl

/-- No two types of them have one name. -/
theorem Apart.nodup_types {l : List Symbol} (h : Apart l) :
    ((l.filter isType).map name).Nodup := by
  have hfilter : (l.filter isType).Pairwise fun s t => s.clashes t = false := h.filter isType
  rw [List.Nodup, List.pairwise_map]
  refine List.Pairwise.imp_of_mem (fun {s t} hs _ hst hname => ?_) hfilter
  have hpackage := isPackage_of_isType (List.mem_filter.1 hs).2
  unfold clashes at hst
  rw [hname, hpackage] at hst
  simp at hst

end Symbol

/-! ## The file of a symbol -/

theorem file_of_mem_members {file scope : String} {names : List String} {s : Symbol}
    (h : s ∈ memberSymbols file scope names) : s.file = file := by
  obtain ⟨name, -, rfl⟩ := List.mem_map.1 h
  rfl

theorem file_of_mem_extensions {file scope : String} {fields : List FieldDescriptor} {s : Symbol}
    (h : s ∈ extensionSymbols file scope fields) : s.file = file := by
  obtain ⟨f, -, rfl⟩ := List.mem_map.1 h
  rfl

theorem file_of_mem_enums {file scope : String} {enums : List EnumDescriptor} {s : Symbol}
    (h : s ∈ enums.flatMap (EnumDescriptor.symbols file scope)) : s.file = file := by
  obtain ⟨e, -, h⟩ := List.mem_flatMap.1 h
  rcases List.mem_cons.1 h with rfl | h
  · rfl
  · exact file_of_mem_members h

mutual

/-- The symbols of a message stand in its file. -/
theorem MessageDescriptor.file_of_mem_symbols (file : String) : ∀ (m : MessageDescriptor)
    (scope : String) (s : Symbol), s ∈ m.symbols file scope → s.file = file
  | ⟨name, fields, nested, enums, oneofs, extensions, ranges, reserved, names, entry, options⟩,
    scope, s, h => by
    unfold MessageDescriptor.symbols at h
    rcases List.mem_append.1 h with h | h
    · rcases List.mem_append.1 h with h | h
      · rcases List.mem_append.1 h with h | h
        · rcases List.mem_append.1 h with h | h
          · rcases List.mem_cons.1 h with rfl | h
            · rfl
            · exact file_of_mem_members h
          · exact file_of_mem_members h
        · exact file_of_mem_extensions h
      · exact file_of_mem_enums h
    · exact file_of_mem_messagesSymbols file nested (nameIn scope name) s h

/-- The same for the messages of a list. -/
theorem file_of_mem_messagesSymbols (file : String) : ∀ (ms : List MessageDescriptor)
    (scope : String) (s : Symbol), s ∈ messagesSymbols file scope ms → s.file = file
  | [], _, _, h => absurd h List.not_mem_nil
  | m :: ms, scope, s, h => by
    unfold messagesSymbols at h
    rcases List.mem_append.1 h with h | h
    · exact MessageDescriptor.file_of_mem_symbols file m scope s h
    · exact file_of_mem_messagesSymbols file ms scope s h

end

/-! ## Types among the symbols -/

theorem filter_isType_members (file scope : String) (names : List String) :
    (memberSymbols file scope names).filter Symbol.isType = [] := by
  refine List.filter_eq_nil_iff.2 fun s hs => ?_
  obtain ⟨name, -, rfl⟩ := List.mem_map.1 hs
  exact Bool.false_ne_true

theorem filter_isType_extensions (file scope : String) (fields : List FieldDescriptor) :
    (extensionSymbols file scope fields).filter Symbol.isType = [] := by
  refine List.filter_eq_nil_iff.2 fun s hs => ?_
  obtain ⟨f, -, rfl⟩ := List.mem_map.1 hs
  exact Bool.false_ne_true

/-- Of the symbols of enums the enums themselves are types. -/
theorem types_of_enums (file scope : String) (enums : List EnumDescriptor) :
    ((enums.flatMap (EnumDescriptor.symbols file scope)).filter Symbol.isType).map Symbol.name =
      enums.map fun e => nameIn scope e.name := by
  induction enums with
  | nil => rfl
  | cons e enums ih =>
    rw [List.flatMap_cons, List.filter_append, List.map_append, ih]
    have he : (e.symbols file scope).filter Symbol.isType =
        [⟨nameIn scope e.name, .enumeration e, file⟩] := by
      unfold EnumDescriptor.symbols
      rw [List.filter_cons_of_pos rfl, filter_isType_members]
    rw [he]
    rfl

theorem messagesSymbols_eq (file scope : String) (ms : List MessageDescriptor) :
    messagesSymbols file scope ms = ms.flatMap (MessageDescriptor.symbols file scope) := by
  induction ms with
  | nil => rfl
  | cons m ms ih =>
    unfold messagesSymbols
    rw [ih, List.flatMap_cons]

theorem MessageDescriptor.symbols_eq (file scope : String) (m : MessageDescriptor) :
    m.symbols file scope = ⟨nameIn scope m.name, .message m, file⟩ ::
      memberSymbols file (nameIn scope m.name) (m.fields.map (·.name)) ++
      memberSymbols file (nameIn scope m.name) (m.oneofs.map (·.name)) ++
      extensionSymbols file (nameIn scope m.name) m.extensions ++
      m.enums.flatMap (EnumDescriptor.symbols file (nameIn scope m.name)) ++
      messagesSymbols file (nameIn scope m.name) m.nested := by
  cases m
  rfl

mutual

/-- The types of a message are its symbols that are types. -/
theorem MessageDescriptor.types_of_symbols (file : String) : ∀ (m : MessageDescriptor)
    (scope : String), ((m.symbols file scope).filter Symbol.isType).map Symbol.name =
      m.typeNames scope
  | ⟨name, fields, nested, enums, oneofs, extensions, ranges, reserved, names, entry, options⟩,
    scope => by
    rw [MessageDescriptor.symbols_eq, MessageDescriptor.typeNames_eq]
    simp only [List.cons_append]
    rw [List.filter_cons_of_pos rfl, List.map_cons]
    simp only [List.filter_append, List.map_append]
    rw [filter_isType_members, filter_isType_members, filter_isType_extensions, types_of_enums,
      types_of_messagesSymbols file nested (nameIn scope name)]
    rfl

/-- The same for the messages of a list. -/
theorem types_of_messagesSymbols (file : String) : ∀ (ms : List MessageDescriptor)
    (scope : String), ((messagesSymbols file scope ms).filter Symbol.isType).map Symbol.name =
      typeNamesAll scope ms
  | [], _ => rfl
  | m :: ms, scope => by
    unfold messagesSymbols typeNamesAll
    rw [List.filter_append, List.map_append, MessageDescriptor.types_of_symbols file m scope,
      types_of_messagesSymbols file ms scope]

end

theorem filter_isType_services (file scope : String) (services : List ServiceDescriptor) :
    (services.flatMap (ServiceDescriptor.symbols file scope)).filter Symbol.isType = [] := by
  refine List.filter_eq_nil_iff.2 fun s hs => ?_
  obtain ⟨t, -, hs⟩ := List.mem_flatMap.1 hs
  unfold ServiceDescriptor.symbols at hs
  rcases List.mem_cons.1 hs with rfl | hs
  · exact Bool.false_ne_true
  · obtain ⟨name, -, rfl⟩ := List.mem_map.1 hs
    exact Bool.false_ne_true

namespace FileDescriptor

/-- The packages among the symbols of the file. -/
def packageSymbols (f : FileDescriptor) : List Symbol :=
  if f.package = "" then []
  else (scopes f.package).filter (· != "") |>.map fun name => ⟨name, .package, f.name⟩

theorem symbols_eq (f : FileDescriptor) :
    f.symbols = f.packageSymbols ++ messagesSymbols f.name f.package f.messages ++
      f.enums.flatMap (EnumDescriptor.symbols f.name f.package) ++
      f.services.flatMap (ServiceDescriptor.symbols f.name f.package) ++
      extensionSymbols f.name f.package f.extensions := rfl

/-- The symbols of a file stand in it. -/
theorem file_of_mem_symbols {f : FileDescriptor} {s : Symbol} (h : s ∈ f.symbols) :
    s.file = f.name := by
  rw [symbols_eq] at h
  rcases List.mem_append.1 h with h | h
  · rcases List.mem_append.1 h with h | h
    · rcases List.mem_append.1 h with h | h
      · rcases List.mem_append.1 h with h | h
        · unfold packageSymbols at h
          split at h
          · exact absurd h List.not_mem_nil
          · obtain ⟨name, -, rfl⟩ := List.mem_map.1 h
            rfl
        · exact file_of_mem_messagesSymbols f.name f.messages f.package s h
      · exact file_of_mem_enums h
    · obtain ⟨t, -, h⟩ := List.mem_flatMap.1 h
      rcases List.mem_cons.1 h with rfl | h
      · rfl
      · exact file_of_mem_members h
  · exact file_of_mem_extensions h

theorem filter_isType_packages (f : FileDescriptor) :
    f.packageSymbols.filter Symbol.isType = [] := by
  refine List.filter_eq_nil_iff.2 fun s hs => ?_
  unfold packageSymbols at hs
  split at hs
  · exact absurd hs List.not_mem_nil
  · obtain ⟨name, -, rfl⟩ := List.mem_map.1 hs
    exact Bool.false_ne_true

/-- The types of a file are its symbols that are types. -/
theorem types_of_symbols (f : FileDescriptor) :
    (f.symbols.filter Symbol.isType).map Symbol.name = f.typeNames := by
  rw [symbols_eq]
  simp only [List.filter_append, List.map_append]
  rw [filter_isType_packages, filter_isType_services, filter_isType_extensions, types_of_enums,
    types_of_messagesSymbols, List.map_nil, List.nil_append, List.append_nil, List.append_nil]
  rfl

theorem mem_typeNames_iff {f : FileDescriptor} {name : String} :
    name ∈ f.typeNames ↔ ∃ s ∈ f.symbols, s.isType = true ∧ s.name = name := by
  rw [← types_of_symbols, List.mem_map]
  constructor
  · rintro ⟨s, hs, rfl⟩
    exact ⟨s, (List.mem_filter.1 hs).1, (List.mem_filter.1 hs).2, rfl⟩
  · rintro ⟨s, hs, htype, rfl⟩
    exact ⟨s, List.mem_filter.2 ⟨hs, htype⟩, rfl⟩

/-- A service is a symbol that is no type. -/
theorem exists_symbol_of_service {f : FileDescriptor} {s : ServiceDescriptor}
    (h : s ∈ f.services) : ∃ t ∈ f.symbols, t.name = nameIn f.package s.name ∧
      t.isType = false ∧ t.isPackage = false := by
  refine ⟨⟨nameIn f.package s.name, .member, f.name⟩, ?_, rfl, rfl, rfl⟩
  rw [symbols_eq]
  refine List.mem_append_left _ (List.mem_append_right _ (List.mem_flatMap_of_mem h ?_))
  exact List.mem_cons_self

end FileDescriptor

end Proto
end SchemaPage
