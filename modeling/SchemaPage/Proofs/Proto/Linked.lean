import Mathlib.Data.Option.Basic
import SchemaPage.Proofs.Proto.Symbols
import SchemaPage.Proto.Linker

/-!
# What linking does

Linking keeps everything in a file except for what is known of types: the type name of a field
becomes the full name of a symbol that is a type, and its kind the kind of that type.

* `Names.mem_of_resolve?`: what a name means is a symbol that is known and reached.
* `FieldDescriptor.resolve?_cases`: a field of a scalar stays, any other names a type.
* `MessageDescriptor.Resolves`, `FileDescriptor.Resolves`: what a message and a file become.
* `FileDescriptor.alike_of_resolves`: the symbols stay the same, but for what they name.
* `FileDescriptor.LinksTo`: what it takes to link a file.
-/

namespace SchemaPage
namespace Proto

/-! ## Names -/

namespace Names

variable {names : Names} {admitted : Symbol → Bool}

theorem mem_of_symbol? {name : String} {s : Symbol} (h : names.symbol? admitted name = some s) :
    s ∈ names.symbols ∧ s.name = name ∧ s.file ∈ names.reached ∧ admitted s = true := by
  unfold symbol? at h
  have hs := List.find?_some h
  simp only [Bool.and_eq_true, beq_iff_eq, List.contains_iff_mem] at hs
  exact ⟨List.mem_of_find?_eq_some h, hs.1.1, hs.1.2, hs.2⟩

/-- What a name means is found under a full name. -/
theorem symbol?_of_resolve? {scope name : String} {s : Symbol}
    (h : names.resolve? admitted scope name = some s) : names.symbol? admitted s.name = some s := by
  have hsymbol : ∀ full, names.symbol? admitted full = some s →
      names.symbol? admitted s.name = some s := fun full h => by
    rwa [(mem_of_symbol? h).2.1]
  unfold resolve? at h
  split at h
  · exact hsymbol _ h
  · split at h
    · obtain ⟨scope', -, h⟩ := Option.bind_eq_some_iff.1 h
      exact hsymbol _ h
    · obtain ⟨scope', -, h⟩ := List.exists_of_findSome?_eq_some h
      exact hsymbol _ h

/-- What a name means is a symbol that is known and reached. -/
theorem mem_of_resolve? {scope name : String} {s : Symbol}
    (h : names.resolve? admitted scope name = some s) :
    s ∈ names.symbols ∧ s.file ∈ names.reached ∧ admitted s = true := by
  obtain ⟨hmem, -, hreached, hadm⟩ := mem_of_symbol? (symbol?_of_resolve? h)
  exact ⟨hmem, hreached, hadm⟩

end Names

/-! ## Fields -/

/-- The kind of a field that names a symbol. -/
def FieldDescriptor.kindOf (f : FieldDescriptor) (s : Symbol) : FieldKind :=
  if !s.isMessage then .enumeration else if f.kind = some .group then .group else .message

/-- A field of a scalar stays as it is, any other names the type that its type name means. -/
theorem FieldDescriptor.resolve?_cases {names : Names} {scope : String} {f f' : FieldDescriptor}
    (h : f.resolve? names scope = some f') :
    (f.typeName = "" ∧ f' = f) ∨ (f.typeName ≠ "" ∧
      ∃ s, names.resolve? Symbol.isType scope f.typeName = some s ∧
        f' = { f with kind := some (f.kindOf s), typeName := s.written }) := by
  unfold resolve? at h
  split at h
  · rename_i hempty
    exact Or.inl ⟨hempty, (Option.some_inj.1 h).symm⟩
  · rename_i hne
    obtain ⟨s, hs, rfl⟩ := Option.map_eq_some_iff.1 h
    exact Or.inr ⟨hne, s, hs, rfl⟩

theorem FieldDescriptor.name_of_resolve? {names : Names} {scope : String} {f f' : FieldDescriptor}
    (h : f.resolve? names scope = some f') : f'.name = f.name := by
  rcases resolve?_cases h with ⟨-, rfl⟩ | ⟨-, s, -, rfl⟩
  · rfl
  · rfl

theorem FieldDescriptor.name_of_resolveExtension? {names : Names} {scope : String}
    {f f' : FieldDescriptor} (h : f.resolveExtension? names scope = some f') :
    f'.name = f.name := by
  obtain ⟨g, hg, h⟩ := Option.bind_eq_some_iff.1 h
  obtain ⟨s, -, h⟩ := Option.bind_eq_some_iff.1 h
  obtain ⟨m, -, h⟩ := Option.bind_eq_some_iff.1 h
  obtain ⟨-, -, h⟩ := Option.bind_eq_some_iff.1 h
  rw [← Option.some_inj.1 h, ← name_of_resolve? hg]

/-! ## Messages -/

/-- What a message becomes when it is linked in a scope. -/
structure MessageDescriptor.Resolves (names : Names) (dialect : Dialect) (scope : String)
    (m m' : MessageDescriptor) : Prop where
  name : m'.name = m.name
  fields : List.Forall₂ (fun f f' => f.resolve? names (nameIn scope m.name) = some f') m.fields
    m'.fields
  extensions : List.Forall₂
    (fun f f' => f.resolveExtension? names (nameIn scope m.name) = some f') m.extensions
    m'.extensions
  nested : List.Forall₂
    (fun n n' => n.resolve? names dialect (nameIn scope m.name) = some n') m.nested m'.nested
  enums : m'.enums = m.enums
  oneofs : m'.oneofs = m.oneofs
  mapEntry : m'.mapEntry = (m.mapEntry || isSet "map_entry" m.options)

theorem resolveAll?_eq_some_iff {names : Names} {dialect : Dialect} {scope : String}
    {ms ms' : List MessageDescriptor} :
    resolveAll? names dialect scope ms = some ms' ↔
      List.Forall₂ (fun m m' => m.resolve? names dialect scope = some m') ms ms' := by
  rw [← Outcome.mapM_eq_some_iff]
  induction ms generalizing ms' with
  | nil => rfl
  | cons m ms ih =>
    unfold resolveAll?
    rw [List.mapM_cons]
    have hall : resolveAll? names dialect scope ms =
        ms.mapM fun m => m.resolve? names dialect scope := by
      cases h : resolveAll? names dialect scope ms with
      | none =>
        cases h' : ms.mapM fun m => m.resolve? names dialect scope with
        | none => rfl
        | some r => rw [ih.2 h'] at h; exact absurd h nofun
      | some r => exact (ih.1 h).symm
    rw [hall]
    rfl

theorem MessageDescriptor.resolves_of_resolve? {names : Names} {dialect : Dialect}
    {scope : String} {m m' : MessageDescriptor} (h : m.resolve? names dialect scope = some m') :
    m.Resolves names dialect scope m' := by
  cases m
  unfold resolve? at h
  obtain ⟨fields, hfields, h⟩ := Option.bind_eq_some_iff.1 h
  obtain ⟨extensions, hextensions, h⟩ := Option.bind_eq_some_iff.1 h
  obtain ⟨nested, hnested, h⟩ := Option.bind_eq_some_iff.1 h
  obtain ⟨-, -, h⟩ := Option.bind_eq_some_iff.1 h
  obtain ⟨-, -, h⟩ := Option.bind_eq_some_iff.1 h
  obtain ⟨-, -, h⟩ := Option.bind_eq_some_iff.1 h
  obtain rfl := Option.some_inj.1 h
  exact ⟨rfl, Outcome.mapM_eq_some_iff.1 hfields, Outcome.mapM_eq_some_iff.1 hextensions,
    resolveAll?_eq_some_iff.1 hnested, rfl, rfl, rfl⟩

mutual

/-- Inside a linked message stands what has become of what stood inside the message. -/
theorem MessageDescriptor.resolves_within (names : Names) (dialect : Dialect) :
    ∀ (m m' : MessageDescriptor) (scope : String), m.resolve? names dialect scope = some m' →
      List.Forall₂ (fun n n' => ∃ scope, n.Resolves names dialect scope n') m.within m'.within
  | ⟨name, fields, nested, enums, oneofs, extensions, ranges, reserved, rnames, entry, options⟩,
    m', scope, h => by
    have hm := MessageDescriptor.resolves_of_resolve? h
    rw [MessageDescriptor.within_eq m', ← withinAll_eq]
    exact .cons ⟨scope, hm⟩
      (resolves_withinAll names dialect nested m'.nested (nameIn scope name) hm.nested)

/-- The same for the messages of a list. -/
theorem resolves_withinAll (names : Names) (dialect : Dialect) :
    ∀ (ms ms' : List MessageDescriptor) (scope : String),
      List.Forall₂ (fun m m' => m.resolve? names dialect scope = some m') ms ms' →
      List.Forall₂ (fun n n' => ∃ scope, n.Resolves names dialect scope n') (withinAll ms)
        (withinAll ms')
  | [], _, _, .nil => .nil
  | m :: ms, _, scope, .cons hm hms => by
    unfold withinAll
    exact List.rel_append (MessageDescriptor.resolves_within names dialect m _ scope hm)
      (resolves_withinAll names dialect ms _ scope hms)

end

theorem alike_members (file scope : String) {names names' : List String} (h : names' = names) :
    List.Forall₂ Symbol.Alike (memberSymbols file scope names)
      (memberSymbols file scope names') := by
  rw [h]
  exact Symbol.alike_refl_all _

theorem alike_extensions (names : Names) (file scope : String) {l l' : List FieldDescriptor}
    (h : List.Forall₂ (fun f f' => f.resolveExtension? names scope = some f') l l') :
    List.Forall₂ Symbol.Alike (extensionSymbols file scope l) (extensionSymbols file scope l') := by
  refine Symbol.alike_map (fun f f' hf => ?_) h
  exact ⟨by rw [FieldDescriptor.name_of_resolveExtension? hf], rfl, rfl, rfl, rfl⟩

mutual

/-- The symbols of a message stay the same, but for what they name. -/
theorem MessageDescriptor.alike_of_resolve? (names : Names) (dialect : Dialect) (file : String) :
    ∀ (m m' : MessageDescriptor) (scope : String), m.resolve? names dialect scope = some m' →
      List.Forall₂ Symbol.Alike (m.symbols file scope) (m'.symbols file scope)
  | ⟨name, fields, nested, enums, oneofs, extensions, ranges, reserved, rnames, entry, options⟩,
    m', scope, h => by
    have hm := MessageDescriptor.resolves_of_resolve? h
    have hnested := alike_of_resolveAll? names dialect file nested m'.nested (nameIn scope name)
      hm.nested
    have hfields : m'.fields.map (·.name) = fields.map (·.name) :=
      (Outcome.map_eq_map_of_forall₂ hm.fields fun _ _ _ _ hf =>
        (FieldDescriptor.name_of_resolve? hf).symm).symm
    rw [MessageDescriptor.symbols_eq, MessageDescriptor.symbols_eq, hm.name, hm.enums, hm.oneofs]
    refine List.rel_append (List.rel_append (List.rel_append (List.rel_append
      (List.Forall₂.cons ⟨rfl, rfl, rfl, rfl, rfl⟩ ?_) ?_) ?_) ?_) hnested
    · exact alike_members file _ hfields
    · exact Symbol.alike_refl_all _
    · exact alike_extensions names file _ hm.extensions
    · exact Symbol.alike_refl_all _

/-- The same for the messages of a list. -/
theorem alike_of_resolveAll? (names : Names) (dialect : Dialect) (file : String) :
    ∀ (ms ms' : List MessageDescriptor) (scope : String),
      List.Forall₂ (fun m m' => m.resolve? names dialect scope = some m') ms ms' →
      List.Forall₂ Symbol.Alike (messagesSymbols file scope ms) (messagesSymbols file scope ms')
  | [], _, _, .nil => .nil
  | m :: ms, _, scope, .cons hm hms => by
    unfold messagesSymbols
    exact List.rel_append (MessageDescriptor.alike_of_resolve? names dialect file m _ scope hm)
      (alike_of_resolveAll? names dialect file ms _ scope hms)

end

/-! ## Services -/

/-- What a method becomes when it is linked in a scope. -/
structure MethodDescriptor.Resolves (names : Names) (scope : String) (m m' : MethodDescriptor) :
    Prop where
  name : m'.name = m.name
  input : ∃ s, names.resolve? Symbol.isMessage scope m.input = some s ∧ m'.input = s.written
  output : ∃ s, names.resolve? Symbol.isMessage scope m.output = some s ∧ m'.output = s.written

theorem MethodDescriptor.resolves_of_resolve? {names : Names} {scope : String}
    {m m' : MethodDescriptor} (h : m.resolve? names scope = some m') :
    m.Resolves names scope m' := by
  obtain ⟨input, hinput, h⟩ := Option.bind_eq_some_iff.1 h
  obtain ⟨output, houtput, h⟩ := Option.bind_eq_some_iff.1 h
  obtain rfl := Option.some_inj.1 h
  exact ⟨rfl, ⟨input, hinput, rfl⟩, ⟨output, houtput, rfl⟩⟩

/-- What a service becomes when it is linked in a scope. -/
structure ServiceDescriptor.Resolves (names : Names) (scope : String) (s s' : ServiceDescriptor) :
    Prop where
  name : s'.name = s.name
  methods : List.Forall₂
    (MethodDescriptor.Resolves names (nameIn scope s.name)) s.methods s'.methods

theorem ServiceDescriptor.resolves_of_resolve? {names : Names} {scope : String}
    {s s' : ServiceDescriptor} (h : s.resolve? names scope = some s') :
    s.Resolves names scope s' := by
  obtain ⟨methods, hmethods, h⟩ := Option.bind_eq_some_iff.1 h
  obtain rfl := Option.some_inj.1 h
  exact ⟨rfl, (Outcome.mapM_eq_some_iff.1 hmethods).imp
    fun _ _ => MethodDescriptor.resolves_of_resolve?⟩

theorem alike_services (names : Names) (file scope : String) {l l' : List ServiceDescriptor}
    (h : List.Forall₂ (ServiceDescriptor.Resolves names scope) l l') :
    List.Forall₂ Symbol.Alike (l.flatMap (ServiceDescriptor.symbols file scope))
      (l'.flatMap (ServiceDescriptor.symbols file scope)) := by
  induction h with
  | nil => exact .nil
  | @cons s s' l l' hs _ ih =>
    have hmethods : s'.methods.map (·.name) = s.methods.map (·.name) :=
      (Outcome.map_eq_map_of_forall₂ hs.methods fun _ _ _ _ hm => hm.name.symm).symm
    rw [List.flatMap_cons, List.flatMap_cons]
    refine List.rel_append ?_ ih
    unfold ServiceDescriptor.symbols
    rw [hs.name]
    exact .cons (Symbol.Alike.refl _) (alike_members file _ hmethods)

/-! ## Files -/

namespace FileDescriptor

/-- What a file becomes when it is linked. -/
structure Resolves (names : Names) (f f' : FileDescriptor) : Prop where
  name : f'.name = f.name
  package : f'.package = f.package
  dialect : f'.dialect = f.dialect
  dependencies : f'.dependencies = f.dependencies
  locations : f'.locations = f.locations
  enums : f'.enums = f.enums
  messages : List.Forall₂ (fun m m' => m.resolve? names f.dialect f.package = some m') f.messages
    f'.messages
  services : List.Forall₂ (ServiceDescriptor.Resolves names f.package) f.services f'.services
  extensions : List.Forall₂ (fun e e' => e.resolveExtension? names f.package = some e')
    f.extensions f'.extensions

theorem resolves_of_resolve? {names : Names} {f f' : FileDescriptor}
    (h : f.resolve? names = some f') : f.Resolves names f' := by
  obtain ⟨messages, hmessages, h⟩ := Option.bind_eq_some_iff.1 h
  obtain ⟨services, hservices, h⟩ := Option.bind_eq_some_iff.1 h
  obtain ⟨extensions, hextensions, h⟩ := Option.bind_eq_some_iff.1 h
  obtain ⟨-, -, h⟩ := Option.bind_eq_some_iff.1 h
  obtain rfl := Option.some_inj.1 h
  exact ⟨rfl, rfl, rfl, rfl, rfl, rfl, resolveAll?_eq_some_iff.1 hmessages,
    (Outcome.mapM_eq_some_iff.1 hservices).imp fun _ _ => ServiceDescriptor.resolves_of_resolve?,
    Outcome.mapM_eq_some_iff.1 hextensions⟩

/-- The symbols of a file stay the same, but for what they name. -/
theorem alike_of_resolves {names : Names} {f f' : FileDescriptor} (h : f.Resolves names f') :
    List.Forall₂ Symbol.Alike f.symbols f'.symbols := by
  have hpackages : f'.packageSymbols = f.packageSymbols := by
    unfold packageSymbols
    rw [h.package, h.name]
  rw [symbols_eq, symbols_eq, hpackages, h.package, h.name, h.enums]
  refine List.rel_append (List.rel_append (List.rel_append (List.rel_append
    (Symbol.alike_refl_all _) ?_) (Symbol.alike_refl_all _)) ?_) ?_
  · exact alike_of_resolveAll? names f.dialect f.name _ _ f.package h.messages
  · exact alike_services names f.name f.package h.services
  · exact alike_extensions names f.name f.package h.extensions

/-- What it takes to link a file after others. -/
structure LinksTo (pool : List Linked) (f : FileDescriptor) (l : Linked) : Prop where
  apart : Symbol.Apart f.symbols
  fresh : ∀ s ∈ f.symbols, ∀ t ∈ pool.flatMap (·.symbols), s.clashes t = false
  resolves : ∃ reached, f.reachedAfter? pool = some reached ∧
    f.Resolves ⟨f.symbols ++ pool.flatMap (·.symbols), reached⟩ l.file
  symbols : l.symbols = l.file.symbols
  exports : l.exports =
    f.name :: (f.dependencies.filter (·.isPublic)).flatMap fun d => exportsAfter pool d.path

theorem linksTo_of_link? {pool : List Linked} {f : FileDescriptor} {l : Linked}
    (h : f.link? pool = some l) : f.LinksTo pool l := by
  unfold link? at h
  obtain ⟨_, hguard, h⟩ := Option.bind_eq_some_iff.1 h
  obtain ⟨reached, hreached, h⟩ := Option.bind_eq_some_iff.1 h
  obtain ⟨file, hfile, h⟩ := Option.bind_eq_some_iff.1 h
  obtain ⟨-, -, h⟩ := Option.bind_eq_some_iff.1 h
  obtain rfl := Option.some_inj.1 h
  have hclash : (!Symbol.anyClash f.symbols &&
      f.symbols.all fun s => !(pool.flatMap (·.symbols)).any s.clashes) = true := by
    by_contra hne
    have hnone : (none : Option Unit) = some _ := (if_neg hne).symm.trans hguard
    exact absurd hnone (Option.some_ne_none _).symm
  rw [Bool.and_eq_true, Bool.not_eq_true', List.all_eq_true] at hclash
  refine ⟨Symbol.apart_of_anyClash hclash.1, fun s hs t ht => ?_,
    ⟨reached, hreached, resolves_of_resolve? hfile⟩, rfl, rfl⟩
  have hs := hclash.2 s hs
  rw [Bool.not_eq_true', List.any_eq_false] at hs
  simpa using hs t ht

end FileDescriptor

end Proto
end SchemaPage
