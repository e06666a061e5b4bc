import Mathlib.Data.List.TakeWhile
import SchemaPage.Proofs.Proto.Readable
import SchemaPage.Proofs.Proto.Symbols
import SchemaPage.Proofs.Schema.References

/-!
# The scopes around a type

The scopes around a full name are what is left of it at its dots.  Around a declared type of a file
stand declared types of the same file, then its package and the packages around that, and last the
root: nothing else is ever in between.

* `scopes_nameIn`, `mem_scopes_nameIn`: the scopes around a name in a scope.
* `lastPart_append_dot`: the last part of a name in a scope.
* `FileDescriptor.exists_symbol_of_mem_scopes`: the scopes around a declared type are symbols.
* `FileDescriptor.inside_of_mem_placed`: what stands in a message that is placed.
-/

namespace SchemaPage

open Proto

/-! ## Dots -/

theorem dotPrefixes_of_forall_ne {cs : List Char} (h : ∀ c ∈ cs, c ≠ '.') :
    dotPrefixes cs = [] := by
  induction cs with
  | nil => rfl
  | cons c cs ih =>
    unfold dotPrefixes
    rw [if_neg (h c List.mem_cons_self), ih fun d hd => h d (List.mem_cons_of_mem c hd)]
    rfl

/-- A dot ends a stretch, wherever it stands. -/
theorem dotPrefixes_append (l r : List Char) :
    dotPrefixes (l ++ '.' :: r) =
      dotPrefixes l ++ l :: (dotPrefixes r).map fun p => l ++ '.' :: p := by
  induction l with
  | nil =>
    rw [List.nil_append]
    conv => lhs; unfold dotPrefixes
    rfl
  | cons c l ih =>
    have hcons : ∀ cs, dotPrefixes (c :: cs) =
        (if c = '.' then [[]] else []) ++ (dotPrefixes cs).map (c :: ·) := fun _ => rfl
    rw [List.cons_append, hcons, hcons, ih, List.map_append, List.map_cons, List.map_map,
      List.append_assoc]
    rfl

theorem toList_append_dot (a b : String) :
    (a ++ "." ++ b).toList = a.toList ++ '.' :: b.toList := by
  rw [String.toList_append, String.toList_append, List.append_assoc]
  rfl

theorem mem_scopes_iff {full a : String} :
    a ∈ scopes full ↔ a = full ∨ a.toList ∈ dotPrefixes full.toList ∨ a = "" := by
  have hmap : a ∈ (dotPrefixes full.toList).reverse.map String.ofList ↔
      a.toList ∈ dotPrefixes full.toList := by
    rw [List.mem_map]
    constructor
    · rintro ⟨p, hp, rfl⟩
      rw [String.toList_ofList]
      exact List.mem_reverse.1 hp
    · exact fun h => ⟨a.toList, List.mem_reverse.2 h, String.ofList_toList⟩
  unfold scopes
  rw [List.cons_append, List.mem_cons, List.mem_append, hmap, List.mem_singleton]

/-- The scopes around a name in a scope are the name itself and the scopes around the scope. -/
theorem scopes_nameIn {scope name : String} (hscope : scope ≠ "") (hname : isWord name = true) :
    scopes (nameIn scope name) = nameIn scope name :: scopes scope := by
  have hdots : dotPrefixes name.toList = [] :=
    dotPrefixes_of_forall_ne fun c hc => ne_dot_of_isWordChar ((isWord_iff.1 hname).2 c hc)
  rw [nameIn_of_ne hscope]
  unfold scopes
  rw [toList_append_dot, dotPrefixes_append, hdots, List.map_nil, List.reverse_append,
    List.reverse_singleton, List.singleton_append, List.map_cons, String.ofList_toList]
  rfl

theorem mem_scopes_nameIn {scope name a : String} (hname : isWord name = true) :
    a ∈ scopes (nameIn scope name) ↔ a = nameIn scope name ∨ a ∈ scopes scope := by
  by_cases hscope : scope = ""
  · have hdots : dotPrefixes name.toList = [] :=
      dotPrefixes_of_forall_ne fun c hc => ne_dot_of_isWordChar ((isWord_iff.1 hname).2 c hc)
    rw [hscope, nameIn_empty, mem_scopes_iff, mem_scopes_iff, hdots]
    simp [dotPrefixes]
  · rw [scopes_nameIn hscope hname, List.mem_cons]

/-- The first part of a list that is cut stands before the first place where it is cut. -/
theorem Text.exists_append_of_cut {α : Type} {q : α → Bool} {l part part' : List α}
    {parts : List (List α)} (h : cut q l = part :: part' :: parts) :
    ∃ c r, q c = true ∧ l = part ++ c :: r := by
  induction l generalizing part with
  | nil => exact absurd h (by simp)
  | cons a l ih =>
    by_cases ha : q a = true
    · rw [cut_cons_of_pos ha] at h
      obtain ⟨rfl, -⟩ := List.cons.inj h
      exact ⟨a, l, ha, rfl⟩
    · obtain ⟨first, rest, hl⟩ := List.exists_cons_of_ne_nil (cut_ne_nil q l)
      rw [cut_cons_of_neg (Bool.eq_false_iff.2 ha) hl] at h
      obtain ⟨rfl, rfl⟩ := List.cons.inj h
      obtain ⟨c, r, hc, rfl⟩ := ih hl
      exact ⟨c, r, hc, rfl⟩

/-- In a scope, the first part of a dotted name is a scope around the name. -/
theorem nameIn_first_mem_scopes {name first second : String} {rest : List String}
    (h : Text.split '.' name = first :: second :: rest) (scope : String) :
    nameIn scope first ∈ scopes (nameIn scope name) := by
  -- there is a second part, so a dot follows the first one
  have hparts : ∃ part part' parts, Text.cut (· == '.') name.toList = part :: part' :: parts ∧
      first = String.ofList part := by
    unfold Text.split at h
    cases hcut : Text.cut (· == '.') name.toList with
    | nil => exact absurd hcut (Text.cut_ne_nil _ _)
    | cons part parts =>
      rw [hcut] at h
      cases parts with
      | nil => exact absurd h (by simp)
      | cons part' parts => exact ⟨part, part', parts, rfl, (List.cons.inj h).1.symm⟩
  obtain ⟨part, part', parts, hcut, rfl⟩ := hparts
  obtain ⟨c, r, hc, hname⟩ := Text.exists_append_of_cut hcut
  obtain rfl : c = '.' := beq_iff_eq.1 hc
  refine mem_scopes_iff.2 (Or.inr (Or.inl ?_))
  by_cases hscope : scope = ""
  · rw [hscope, nameIn_empty, nameIn_empty, hname, dotPrefixes_append, String.toList_ofList]
    exact List.mem_append_right _ List.mem_cons_self
  · have hfull : (scope ++ "." ++ name).toList = (scope.toList ++ '.' :: part) ++ '.' :: r := by
      rw [toList_append_dot, hname]
      simp
    rw [nameIn_of_ne hscope, nameIn_of_ne hscope, hfull, dotPrefixes_append, toList_append_dot,
      String.toList_ofList]
    exact List.mem_append_right _ List.mem_cons_self

/-! ## Last parts -/

theorem takeWhile_append_cons {α : Type} {p : α → Bool} {a : α} (h : p a = false) (l r : List α) :
    (l ++ a :: r).takeWhile p = l.takeWhile p := by
  induction l with
  | nil => rw [List.nil_append, List.takeWhile_cons_of_neg (by rw [h]; exact Bool.false_ne_true),
      List.takeWhile_nil]
  | cons b l ih =>
    rw [List.cons_append, List.takeWhile_cons, List.takeWhile_cons, ih]

namespace Proto

theorem lastPart_append_dot (a b : String) : lastPart (a ++ "." ++ b) = lastPart b := by
  unfold lastPart
  rw [toList_append_dot, List.reverse_append, List.reverse_cons, List.append_assoc,
    List.singleton_append, takeWhile_append_cons (by decide)]

theorem lastPart_nameIn (scope name : String) : lastPart (nameIn scope name) = lastPart name := by
  unfold nameIn
  split
  · rfl
  · exact lastPart_append_dot scope name

theorem lastPart_of_isWord {name : String} (h : isWord name = true) : lastPart name = name := by
  have hall : ∀ c ∈ name.toList.reverse, (c != '.') = true := fun c hc =>
    bne_iff_ne.2 (ne_dot_of_isWordChar ((isWord_iff.1 h).2 c (List.mem_reverse.1 hc)))
  unfold lastPart
  rw [List.takeWhile_eq_self_iff.2 hall, List.reverse_reverse, String.ofList_toList]

/-! ## Placed messages -/

mutual

/-- What stands in a message that is placed stands in the message around it, and so does what is
folded back. -/
theorem MessageDescriptor.inside_of_mem_placed (package file : String) : ∀ (m : MessageDescriptor)
    (scope : Option String) (full : String) (path : List Nat) (p : Placed),
    (∀ x, nameIn package (scopedName scope x) = nameIn full x) →
    (∀ n ∈ m.within, n.name ≠ "") → p ∈ m.placed scope path →
    p.name ≠ "" ∧ ∃ outer, nameIn outer p.message.name = nameIn package p.name ∧
      p.message.symbols file outer ⊆ m.symbols file full ∧
      p.message.entryTypes outer ⊆ m.entryTypes full
  | ⟨name, fields, nested, enums, oneofs, extensions, ranges, reserved, names, entry, options⟩,
    scope, full, path, p, hfull, hne, hp => by
    have hname : name ≠ "" := hne _ (MessageDescriptor.mem_within_self _)
    rw [MessageDescriptor.placed_eq] at hp
    rcases List.mem_cons.1 hp with rfl | hp
    · exact ⟨scopedName_ne_empty scope hname, full, (hfull _).symm, List.Subset.refl _,
        List.Subset.refl _⟩
    · have hown : ∀ x, nameIn package (scopedName (some (scopedName scope name)) x) =
          nameIn (nameIn full name) x := fun x => by
        rw [← hfull name]
        exact nameIn_nameIn package (scopedName_ne_empty scope hname) x
      obtain ⟨hpname, outer, hplace, hsymbols, hentries⟩ :=
        inside_of_mem_placedAll package file nested _
        (scopedName scope name) (nameIn full name) path 0 p hown
        (fun n hn => hne n (List.mem_cons_of_mem _ hn)) hp
      refine ⟨hpname, outer, hplace, fun s hs => ?_, hentries⟩
      rw [MessageDescriptor.symbols_eq]
      exact List.mem_append_right _ (hsymbols hs)

/-- The same for the messages of a list. -/
theorem inside_of_mem_placedAll (package file : String) : ∀ (ms : List MessageDescriptor)
    (admitted : String → Bool) (scope full : String) (path : List Nat) (index : Nat) (p : Placed),
    (∀ x, nameIn package (scopedName (some scope) x) = nameIn full x) →
    (∀ n ∈ withinAll ms, n.name ≠ "") → p ∈ placedAll admitted (some scope) path index ms →
    p.name ≠ "" ∧ ∃ outer, nameIn outer p.message.name = nameIn package p.name ∧
      p.message.symbols file outer ⊆ messagesSymbols file full ms ∧
      p.message.entryTypes outer ⊆ entryTypesAll admitted full ms
  | [], _, _, _, _, _, _, _, _, hp => by
    unfold placedAll at hp
    exact absurd hp List.not_mem_nil
  | m :: ms, admitted, scope, full, path, index, p, hfull, hne, hp => by
    unfold placedAll at hp
    unfold messagesSymbols entryTypesAll
    rcases List.mem_append.1 hp with hp | hp
    · by_cases hadm : admitted m.name = true
      · rw [if_pos hadm] at hp ⊢
        obtain ⟨hpname, outer, hplace, hsymbols, hentries⟩ :=
          MessageDescriptor.inside_of_mem_placed package file m (some scope) full _ p hfull
            (fun n hn => hne n (List.mem_append_left _ hn)) hp
        exact ⟨hpname, outer, hplace, fun s hs => List.mem_append_left _ (hsymbols hs),
          fun n hn => List.mem_append_left _ (hentries hn)⟩
      · rw [if_neg hadm] at hp
        exact absurd hp List.not_mem_nil
    · obtain ⟨hpname, outer, hplace, hsymbols, hentries⟩ := inside_of_mem_placedAll package file ms
        admitted scope full path (index + 1) p hfull
        (fun n hn => hne n (List.mem_append_right _ hn)) hp
      exact ⟨hpname, outer, hplace, fun s hs => List.mem_append_right _ (hsymbols hs),
        fun n hn => List.mem_append_right _ (hentries hn)⟩

end

mutual

/-- Around a message that is placed stand messages that are placed. -/
theorem MessageDescriptor.scope_of_mem_placed (package : String) : ∀ (m : MessageDescriptor)
    (scope : Option String) (full : String) (path : List Nat) (p : Placed) (a : String),
    (∀ x, nameIn package (scopedName scope x) = nameIn full x) →
    (∀ n ∈ m.within, isWord n.name = true) → p ∈ m.placed scope path →
    a ∈ scopes (nameIn package p.name) →
    a ∈ scopes full ∨ ∃ q ∈ m.placed scope path, nameIn package q.name = a
  | ⟨name, fields, nested, enums, oneofs, extensions, ranges, reserved, names, entry, options⟩,
    scope, full, path, p, a, hfull, hword, hp, ha => by
    have hname : isWord name = true := hword _ (MessageDescriptor.mem_within_self _)
    have hself : nameIn package (scopedName scope name) = nameIn full name := hfull name
    have hown : ∀ x, nameIn package (scopedName (some (scopedName scope name)) x) =
        nameIn (nameIn full name) x := fun x => by
      rw [← hfull name]
      exact nameIn_nameIn package (scopedName_ne_empty scope (isWord_iff.1 hname).1) x
    have hscope : a ∈ scopes (nameIn full name) → a ∈ scopes full ∨
        ∃ q ∈ MessageDescriptor.placed scope path ⟨name, fields, nested, enums, oneofs, extensions,
          ranges, reserved, names, entry, options⟩, nameIn package q.name = a := fun h => by
      rcases (mem_scopes_nameIn hname).1 h with rfl | h
      · rw [MessageDescriptor.placed_eq]
        exact Or.inr ⟨_, List.mem_cons_self, hself⟩
      · exact Or.inl h
    rw [MessageDescriptor.placed_eq] at hp
    rcases List.mem_cons.1 hp with rfl | hp
    · exact hscope (hself ▸ ha)
    · rcases scope_of_mem_placedAll package nested _ (scopedName scope name) (nameIn full name) path
        0 p a hown (fun n hn => hword n (List.mem_cons_of_mem _ hn)) hp ha with h | ⟨q, hq, hqa⟩
      · exact hscope h
      · refine Or.inr ⟨q, ?_, hqa⟩
        rw [MessageDescriptor.placed_eq]
        exact List.mem_cons_of_mem _ hq

/-- The same for the messages of a list. -/
theorem scope_of_mem_placedAll (package : String) : ∀ (ms : List MessageDescriptor)
    (admitted : String → Bool) (scope full : String) (path : List Nat) (index : Nat) (p : Placed)
    (a : String), (∀ x, nameIn package (scopedName (some scope) x) = nameIn full x) →
    (∀ n ∈ withinAll ms, isWord n.name = true) → p ∈ placedAll admitted (some scope) path index ms →
    a ∈ scopes (nameIn package p.name) →
    a ∈ scopes full ∨
      ∃ q ∈ placedAll admitted (some scope) path index ms, nameIn package q.name = a
  | [], _, _, _, _, _, _, _, _, _, hp, _ => by
    unfold placedAll at hp
    exact absurd hp List.not_mem_nil
  | m :: ms, admitted, scope, full, path, index, p, a, hfull, hword, hp, ha => by
    unfold placedAll at hp ⊢
    rcases List.mem_append.1 hp with hp | hp
    · by_cases hadm : admitted m.name = true
      · rw [if_pos hadm] at hp ⊢
        rcases MessageDescriptor.scope_of_mem_placed package m (some scope) full _ p a hfull
          (fun n hn => hword n (List.mem_append_left _ hn)) hp ha with h | ⟨q, hq, hqa⟩
        · exact Or.inl h
        · exact Or.inr ⟨q, List.mem_append_left _ hq, hqa⟩
      · rw [if_neg hadm] at hp
        exact absurd hp List.not_mem_nil
    · rcases scope_of_mem_placedAll package ms admitted scope full path (index + 1) p a hfull
        (fun n hn => hword n (List.mem_append_right _ hn)) hp ha with h | ⟨q, hq, hqa⟩
      · exact Or.inl h
      · exact Or.inr ⟨q, List.mem_append_right _ hq, hqa⟩

end

/-! ## Declared types -/

namespace FileDescriptor

variable {f : FileDescriptor}

theorem isWord_of_mem_allMessages (h : f.isReadable = true) :
    ∀ m ∈ f.allMessages, isWord m.name = true := fun m hm =>
  (MessageDescriptor.isReadable_iff.1 ((isReadable_iff.1 h).2.1 m hm)).1

/-- What stands in a message that is placed stands in the file, and so does what is folded back. -/
theorem inside_of_mem_placed (h : f.isReadable = true) {p : Placed} (hp : p ∈ f.placed) :
    p.name ≠ "" ∧ ∃ outer, nameIn outer p.message.name = nameIn f.package p.name ∧
      p.message.symbols f.name outer ⊆ f.symbols ∧ p.message.entryTypes outer ⊆ f.entryTypes := by
  obtain ⟨⟨m, index⟩, hm, hp⟩ := List.mem_flatMap.1 hp
  have hm : m ∈ f.messages := List.fst_mem_of_mem_zipIdx hm
  obtain ⟨hname, outer, hplace, hsymbols, hentries⟩ :=
    MessageDescriptor.inside_of_mem_placed f.package f.name m none f.package _ p (fun _ => rfl)
      (fun n hn =>
        (isWord_iff.1 (isWord_of_mem_allMessages h n (List.mem_flatMap_of_mem hm hn))).1) hp
  refine ⟨hname, outer, hplace,
    fun s hs => ?_, fun n hn => List.mem_flatMap_of_mem hm (hentries hn)⟩
  rw [symbols_eq, messagesSymbols_eq]
  exact List.mem_append_left _ (List.mem_append_left _ (List.mem_append_left _
    (List.mem_append_right _ (List.mem_flatMap_of_mem hm (hsymbols hs)))))

/-- A message that is placed is a symbol. -/
theorem exists_message_of_mem_placed (h : f.isReadable = true) {p : Placed} (hp : p ∈ f.placed) :
    ∃ s ∈ f.symbols, s.name = nameIn f.package p.name ∧ s.isMessage = true := by
  obtain ⟨-, outer, hplace, hsymbols, -⟩ := inside_of_mem_placed h hp
  refine ⟨⟨nameIn outer p.message.name, .message p.message, f.name⟩, hsymbols ?_, hplace, rfl⟩
  rw [MessageDescriptor.symbols_eq]
  exact List.mem_cons_self

theorem declaredTypes_subset_typeNames (h : f.isReadable = true) :
    f.declaredTypes ⊆ f.typeNames := fun n hn => by
  have hperm := perm_typeNames (f := f) fun m hm n hn =>
    (isWord_iff.1 (isWord_of_mem_allMessages h n (List.mem_flatMap_of_mem hm hn))).1
  exact hperm.mem_iff.2 (List.mem_append_left _ hn)

/-- Around a message that is placed stand messages that are placed, and then the package. -/
theorem scope_of_mem_placed (h : f.isReadable = true) {p : Placed} (hp : p ∈ f.placed) {a : String}
    (ha : a ∈ scopes (nameIn f.package p.name)) : a ∈ scopes f.package ∨ a ∈ f.declaredTypes := by
  obtain ⟨⟨m, index⟩, hm, hp⟩ := List.mem_flatMap.1 hp
  rcases MessageDescriptor.scope_of_mem_placed f.package m none f.package _ p a (fun _ => rfl)
    (fun n hn => isWord_of_mem_allMessages h n
      (List.mem_flatMap_of_mem (List.fst_mem_of_mem_zipIdx hm) hn)) hp ha with ha | ⟨q, hq, rfl⟩
  · exact Or.inl ha
  · exact Or.inr (List.mem_append_left _
      (List.mem_flatMap.2 ⟨q, List.mem_flatMap_of_mem hm hq, List.mem_cons_self⟩))

/-- Around a declared type stand declared types, and then the package. -/
theorem scope_of_mem_declaredTypes (h : f.isReadable = true) {n a : String}
    (hn : n ∈ f.declaredTypes) (ha : a ∈ scopes n) :
    a ∈ scopes f.package ∨ a ∈ f.declaredTypes := by
  obtain ⟨-, hmessages, henums, -⟩ := isReadable_iff.1 h
  rcases List.mem_append.1 hn with hplaced | htop
  · obtain ⟨p, hp, hname⟩ := List.mem_flatMap.1 hplaced
    rcases List.mem_cons.1 hname with rfl | hname
    · exact scope_of_mem_placed h hp ha
    · obtain ⟨e, he, rfl⟩ := List.mem_map.1 hname
      have heword : isWord e.name = true := (MessageDescriptor.isReadable_iff.1
        (hmessages _ (message_mem_allMessages hp))).2.2.1 e he
      have hfull : nameIn f.package (scopedName (some p.name) e.name) =
          nameIn (nameIn f.package p.name) e.name :=
        nameIn_nameIn f.package (inside_of_mem_placed h hp).1 e.name
      rw [hfull] at ha
      rcases (mem_scopes_nameIn heword).1 ha with rfl | ha
      · exact Or.inr (hfull ▸ hn)
      · exact scope_of_mem_placed h hp ha
  · obtain ⟨e, he, rfl⟩ := List.mem_map.1 htop
    rcases (mem_scopes_nameIn (henums e he)).1 ha with rfl | ha
    · exact Or.inr hn
    · exact Or.inl ha

/-- The scopes around a declared type are symbols of the file, and a symbol that is no package is a
declared type again. -/
theorem exists_symbol_of_mem_scopes (h : f.isReadable = true) {n a : String}
    (hn : n ∈ f.declaredTypes) (ha : a ∈ scopes n) (hne : a ≠ "") :
    ∃ s ∈ f.symbols, s.name = a ∧ (s.isPackage = true ∨ a ∈ f.declaredTypes) := by
  rcases scope_of_mem_declaredTypes h hn ha with hpackage | hdeclared
  · refine ⟨⟨a, .package, f.name⟩, ?_, rfl, Or.inl rfl⟩
    have hsome : f.package ≠ "" := fun hempty => by
      rw [hempty] at hpackage
      exact hne (by simpa [scopes, dotPrefixes] using hpackage)
    rw [symbols_eq]
    refine List.mem_append_left _ (List.mem_append_left _ (List.mem_append_left _
      (List.mem_append_left _ ?_)))
    unfold packageSymbols
    rw [if_neg hsome]
    exact List.mem_map.2 ⟨a, List.mem_filter.2 ⟨hpackage, bne_iff_ne.2 hne⟩, rfl⟩
  · obtain ⟨s, hs, -, hname⟩ := mem_typeNames_iff.1 (declaredTypes_subset_typeNames h hdeclared)
    exact ⟨s, hs, hname, Or.inr hdeclared⟩

end FileDescriptor

end Proto
end SchemaPage
