import SchemaPage.Proofs.Schema.Linked

/-!
# Declarations before and after linking

The schema file of a descriptor declares the same before the descriptor is linked and after it, name
by name and in the same order.  Of a file that is as it is read the members are the same, too, but
for the types that they write down: each of these becomes the full name of what it means.

* `Names.Owns`: the types of a file are known in it.
* `FileDescriptor.links_of_mem_placed`: what is known of a placed message when its file is linked.
* `FileDescriptor.Keeps`: what a declaration becomes.
* `SchemaFile.matches_ofDescriptor`: the declarations of a file are what they were.
* `SchemaFile.mem_declaredTypes_iff_of_matches`: the declared types are what they were.
-/

namespace SchemaPage
namespace Proto

/-! ## The types of the file itself -/

/-- Every type of a file is known in the file under its full name. -/
def Names.Owns (names : Names) (f : FileDescriptor) : Prop :=
  ∀ s ∈ f.symbols, s.isType = true → names.symbol? Symbol.isType s.name = some s

theorem nameIn_mem_entryTypesAll {admitted : String → Bool} {scope : String}
    {ms : List MessageDescriptor} {n : MessageDescriptor} (hn : n ∈ ms)
    (hadm : admitted n.name = false) : nameIn scope n.name ∈ entryTypesAll admitted scope ms := by
  induction ms with
  | nil => exact absurd hn List.not_mem_nil
  | cons m ms ih =>
    unfold entryTypesAll
    rcases List.mem_cons.1 hn with rfl | hn
    · refine List.mem_append_left _ ?_
      rw [hadm, if_neg Bool.false_ne_true, MessageDescriptor.typeNames_eq]
      exact List.mem_append_left _ List.mem_cons_self
    · exact List.mem_append_right _ (ih hn)

namespace FileDescriptor

variable {names : Names} {f f' : FileDescriptor}

theorem IsWritten.of_mem_allMessages (h : f.IsWritten) {m : MessageDescriptor}
    (hm : m ∈ f.allMessages) : m.IsWritten := by
  obtain ⟨outer, houter, hm⟩ := List.mem_flatMap.1 hm
  exact h.messages outer houter m hm

/-- The map entries of a placed message are folded back, and they are known in the file. -/
theorem links_of_mem_placed (hwritten : f.IsWritten) (hmarks : f.Unmarked) (hdistinct : f.Distinct)
    (howns : names.Owns f) {p : Placed} (hp : p ∈ f.placed) {d : Declaration}
    (hd : d.fullName = nameIn f.package p.name) : p.Links names f.entryTypes d := by
  have hmessage : p.message ∈ f.allMessages := message_mem_allMessages hp
  have hnested : ∀ n ∈ p.message.nested, n ∈ f.allMessages := fun n hn =>
    nested_mem_allMessages hmessage hn
  obtain ⟨-, outer, hplace, hsymbols, hentries⟩ := inside_of_mem_placed hwritten.isReadable hp
  refine ⟨hwritten.of_mem_allMessages hmessage,
    fun n hn => hwritten.of_mem_allMessages (hnested n hn),
    fun n hn => hmarks n (hnested n hn), hdistinct p.message hmessage, fun n hn hmark => ?_⟩
  rw [hd, ← hplace]
  constructor
  · have hadm : (p.message.entryNamed? n.name).isNone = false := by
      rw [Option.isNone_eq_false_iff]
      exact Option.isSome_iff_exists.2 (MessageDescriptor.exists_entryNamed? hn hmark)
    refine hentries ?_
    rw [MessageDescriptor.entryTypes_eq]
    exact nameIn_mem_entryTypesAll hn hadm
  · have hsymbol : (⟨nameIn (nameIn outer p.message.name) n.name, .message n, f.name⟩ : Symbol) ∈
        f.symbols := by
      refine hsymbols ?_
      rw [MessageDescriptor.symbols_eq, messagesSymbols_eq]
      refine List.mem_append_right _ (List.mem_flatMap_of_mem hn ?_)
      rw [MessageDescriptor.symbols_eq]
      exact List.mem_cons_self
    exact ⟨_, howns _ hsymbol rfl, rfl⟩

/-! ## Declarations -/

/-- What a declaration of a file becomes when the file is linked. -/
structure Keeps (names : Names) (f : FileDescriptor) (d d' : Declaration) : Prop where
  same : d.Matches d'
  item : f.IsWritten → f.Distinct → names.Owns f →
    Item.Alike (names.Means f.entryTypes d) d.item d'.item

/-- A service is what it was, and its methods are. -/
theorem Resolves.keeps_service (h : f.Resolves names f') (hreadable : f.isReadable = true)
    (ownership : Ownership) {s s' : ServiceDescriptor} (hs : s ∈ f.services)
    (hresolves : s.Resolves names f.package s') (path : List Nat) :
    f.Keeps names ⟨.ofDescriptor ownership f, .service (s.declaration f.locations path)⟩
      ⟨.ofDescriptor ownership f', .service (s'.declaration f'.locations path)⟩ where
  same := ⟨rfl, hresolves.name.symm, h.package.symm, h.name.symm, rfl⟩
  item := fun _ _ _ => by
    obtain ⟨-, -, -, hmethods⟩ := isReadable_iff.1 hreadable
    refine .service hresolves.name.symm ?_ ?_
    · unfold ServiceDescriptor.declaration
      rw [h.locations]
    · unfold ServiceDescriptor.declaration
      rw [List.forall₂_map_left_iff, List.forall₂_map_right_iff]
      refine (Outcome.forall₂_zipIdx (Outcome.forall₂_and_mem hresolves.methods) 0).imp ?_
      rintro ⟨m, index⟩ ⟨m', index'⟩ ⟨⟨hm, -, hmethod⟩, hindex⟩
      obtain rfl : index = index' := hindex
      obtain ⟨hinput, houtput⟩ := hmethods s hs m hm
      obtain ⟨input, hmeans, hwrites⟩ := hmethod.input
      obtain ⟨output, hmeans', hwrites'⟩ := hmethod.output
      have hwrites : m'.input = input.written := hwrites
      have hwrites' : m'.output = output.written := hwrites'
      refine ⟨hmethod.name.symm, by rw [h.locations], ?_, ?_⟩
      · show names.Means f.entryTypes _ m.input m'.input
        rw [hwrites]
        exact .method rfl hinput hmeans
      · show names.Means f.entryTypes _ m.output m'.output
        rw [hwrites']
        exact .method rfl houtput hmeans'

/-- A message is what it was, and its members are. -/
theorem Resolves.keeps_message (h : f.Resolves names f') (hmarks : f.Unmarked)
    (ownership : Ownership)
    {p p' : Placed} (hp : p ∈ f.placed) (hresolves : p.Resolves names f.dialect f.package p') :
    f.Keeps names ⟨.ofDescriptor ownership f, .message (p.declaration f.locations f.dialect)⟩
      ⟨.ofDescriptor ownership f', .message (p'.declaration f'.locations f'.dialect)⟩ where
  same := ⟨rfl, hresolves.name.symm, h.package.symm, h.name.symm, rfl⟩
  item := fun hwritten hdistinct howns => by
    refine .message hresolves.name.symm ?_ ?_
    · unfold Placed.declaration
      rw [h.locations, hresolves.path]
    · unfold Placed.declaration
      rw [h.locations, h.dialect]
      exact hresolves.alike rfl (links_of_mem_placed hwritten hmarks hdistinct howns hp rfl)

/-- The enums of a file are what they were. -/
theorem Resolves.enums_ofDescriptor (h : f.Resolves names f') (hreadable : f.isReadable = true)
    (hmarks : f.Unmarked) (ownership : Ownership) :
    (SchemaFile.ofDescriptor ownership f').enums = (SchemaFile.ofDescriptor ownership f).enums := by
  have hplaced := Outcome.map_eq_map_of_forall₂ (h.forall₂_placed hreadable hmarks)
    (f := Placed.enums f.locations) (g := Placed.enums f.locations) fun p _ p' _ hp => by
      obtain ⟨scope, -, hmessage⟩ := hp.message
      unfold Placed.enums
      rw [hmessage.enums, hp.name, hp.path]
  unfold SchemaFile.ofDescriptor
  simp only [h.enums, h.locations, List.flatMap_def, hplaced]

end FileDescriptor

open FileDescriptor in
/-- The declarations of a file are what they were, one by one. -/
theorem SchemaFile.matches_ofDescriptor {names : Names} {f f' : FileDescriptor}
    (h : f.Resolves names f') (hreadable : f.isReadable = true) (hmarks : f.Unmarked)
    (ownership : Ownership) :
    SchemaFile.Matches (f.Keeps names) (.ofDescriptor ownership f)
      (.ofDescriptor ownership f') where
  path := h.name.symm
  ownership := rfl
  declarations := fun kind => by
    cases kind with
    | service =>
      unfold SchemaFile.declarations SchemaFile.ofDescriptor
      simp only [List.forall₂_map_left_iff, List.forall₂_map_right_iff]
      refine (Outcome.forall₂_zipIdx (Outcome.forall₂_and_mem h.services) 0).imp ?_
      rintro ⟨s, index⟩ ⟨s', index'⟩ ⟨⟨hs, -, hresolves⟩, hindex⟩
      obtain rfl : index = index' := hindex
      exact h.keeps_service hreadable ownership hs hresolves _
    | enumeration =>
      unfold SchemaFile.declarations
      simp only [h.enums_ofDescriptor hreadable hmarks ownership, List.forall₂_map_left_iff,
        List.forall₂_map_right_iff]
      exact List.forall₂_same.2 fun e _ =>
        ⟨⟨rfl, rfl, h.package.symm, h.name.symm, rfl⟩, fun _ _ _ => .enumeration e⟩
    | message =>
      unfold SchemaFile.declarations SchemaFile.ofDescriptor
      simp only [List.forall₂_map_left_iff, List.forall₂_map_right_iff]
      refine (Outcome.forall₂_and_mem (h.forall₂_placed hreadable hmarks)).imp ?_
      rintro p p' ⟨hp, -, hresolves⟩
      exact h.keeps_message hmarks ownership hp hresolves

end Proto

/-- All declarations of files correspond when those of each kind do. -/
theorem SchemaFile.Matches.allDeclarations {S : Declaration → Declaration → Prop}
    {file file' : SchemaFile} (h : SchemaFile.Matches S file file') :
    List.Forall₂ S file.allDeclarations file'.allDeclarations := by
  refine List.rel_flatMap (List.forall₂_same.2 fun kind _ => Eq.refl kind)
    fun kind kind' hkind => ?_
  rw [← hkind]
  exact h.declarations kind

open Proto in
/-- The declared types of a file are what they were. -/
theorem SchemaFile.mem_declaredTypes_iff_of_matches {S : Declaration → Declaration → Prop}
    {ownership : Ownership} {f f' : FileDescriptor}
    (h : SchemaFile.Matches S (.ofDescriptor ownership f) (.ofDescriptor ownership f'))
    (hS : ∀ d d', S d d' → d.Matches d') {name : String} :
    name ∈ f.declaredTypes ↔ name ∈ f'.declaredTypes := by
  have hdeclared : ∀ {f : FileDescriptor}, name ∈ f.declaredTypes ↔
      ∃ d ∈ (SchemaFile.ofDescriptor ownership f).allDeclarations,
        d.kind ≠ .service ∧ d.fullName = name := mem_declaredTypes_iff
  constructor
  · intro hname
    obtain ⟨d, hd, hkind, rfl⟩ := hdeclared.1 hname
    obtain ⟨d', hd', hdd'⟩ := Outcome.exists_right_of_forall₂ h.allDeclarations hd
    exact hdeclared.2 ⟨d', hd', (hS d d' hdd').kind ▸ hkind, (hS d d' hdd').fullName.symm⟩
  · intro hname
    obtain ⟨d', hd', hkind, rfl⟩ := hdeclared.1 hname
    obtain ⟨d, hd, hdd'⟩ := Outcome.exists_left_of_forall₂ h.allDeclarations hd'
    exact hdeclared.2 ⟨d, hd, (hS d d' hdd').kind.symm ▸ hkind, (hS d d' hdd').fullName⟩

end SchemaPage
