import Mathlib.Data.List.Basic
import SchemaPage.Proofs.Page.Anchor
import SchemaPage.Proofs.Proto.Words
import SchemaPage.Proofs.Text.Clean

/-!
# Which anchors are equal

A name of the schema language is made of words with dots between them.  In an anchor the dots become
hyphens, which no word contains, and capitals become small letters.  So an anchor tells its name
back up to the case of the letters, and two anchors are equal when their labels are and their names
are, case aside.

* `Text.intercalate_injective`: parts without the separator are told back from the whole.
* `Text.lowerParts`: the words of a name in lower case.
* `Text.lowerParts_eq_iff`: they are equal when the names are equal in lower case.
* `Anchor.named`: the anchor of a name under a label; groups, declarations and groups of fields have
  such anchors.
* `Anchor.named_eq_iff`, `Anchor.ofKind_ne_named`: when two anchors are equal.
-/

namespace SchemaPage

/-! ## Joined parts -/

namespace Text

/-- Parts without the separator are told back from the whole. -/
theorem intercalate_injective {sep : String} {c : Char} (hsep : sep.toList = [c])
    {l r : List String}
    (hl : ∀ s ∈ l, c ∉ s.toList) (hr : ∀ s ∈ r, c ∉ s.toList) (hlne : l ≠ []) (hrne : r ≠ [])
    (h : sep.intercalate l = sep.intercalate r) : l = r := by
  have hparts : ∀ {parts : List String}, (∀ s ∈ parts, c ∉ s.toList) → parts ≠ [] →
      (sep.intercalate parts).toList.splitOn c = parts.map String.toList := by
    intro parts hp hne
    rw [String.toList_intercalate, hsep]
    exact List.splitOn_intercalate c (List.forall_mem_map.2 hp) (mt List.map_eq_nil_iff.1 hne)
  have hmap : l.map String.toList = r.map String.toList := by
    rw [← hparts hl hlne, ← hparts hr hrne, h]
  exact List.map_injective_iff.2 (fun _ _ => String.toList_injective) hmap

/-- Replacing the elements of a joined list replaces them in the separator and in the parts. -/
theorem flatMap_intercalate {α β : Type} (f : α → List β) (sep : List α) (parts : List (List α)) :
    (sep.intercalate parts).flatMap f = (sep.flatMap f).intercalate (parts.map (·.flatMap f)) := by
  induction parts with
  | nil => rfl
  | cons part parts ih =>
    cases parts with
    | nil => simp
    | cons next parts =>
      rw [List.intercalate_cons_cons, List.flatMap_append, List.flatMap_append, ih, List.map_cons,
        List.map_cons, List.map_cons, List.intercalate_cons_cons]

/-- Cutting depends on the elements of the list only. -/
theorem cut_congr {α : Type} {q q' : α → Bool} {l : List α} (h : ∀ a ∈ l, q a = q' a) :
    cut q l = cut q' l := by
  induction l with
  | nil => rfl
  | cons a l ih =>
    rw [cut, cut, h a List.mem_cons_self, ih fun b hb => h b (List.mem_cons_of_mem a hb)]

/-! ## Names in lower case -/

/-- The parts of a text between its dots, in lower case. -/
def lowerParts (s : String) : List String := (split '.' s).map lowercase

@[simp] theorem toList_lowercase (s : String) : (lowercase s).toList = s.toList.flatMap lower :=
  String.toList_ofList

/-- The parts with dots between them are the text in lower case. -/
theorem intercalate_lowerParts (s : String) : ".".intercalate (lowerParts s) = lowercase s := by
  have hparts : (lowerParts s).map String.toList =
      (cut (· == '.') s.toList).map (·.flatMap lower) := by
    rw [lowerParts, split, List.map_map, List.map_map]
    refine List.map_congr_left fun part _ => ?_
    simp
  have hdot : ".".toList = ['.'].flatMap lower := by decide +kernel
  rw [← String.toList_inj, String.toList_intercalate, hparts, hdot, ← flatMap_intercalate,
    intercalate_cut, toList_lowercase]

theorem lowerParts_ne_nil (s : String) : lowerParts s ≠ [] := by
  simp [lowerParts, split_ne_nil]

theorem lowerParts_append_dot (a b : String) :
    lowerParts (a ++ "." ++ b) = lowerParts a ++ lowerParts b := by
  rw [lowerParts, Proto.split_append_dot, List.map_append]
  rfl

end Text

namespace Proto

/-- A name of the schema language, or none at all. -/
def IsName (s : String) : Prop := s = "" ∨ isDotted s = true

variable {s t : String}

/-- The parts of a name have characters of words only. -/
theorem IsName.isWordChar (h : IsName s) {part : String} (hpart : part ∈ Text.split '.' s)
    {c : Char} (hc : c ∈ part.toList) : isWordChar c = true := by
  rcases h with rfl | h
  · obtain rfl : part = "" := by simpa [Text.split] using hpart
    exact absurd hc List.not_mem_nil
  · exact (isWord_iff.1 (List.all_eq_true.1 h part hpart)).2 c hc

/-- No mark of the basic alphabet but an underscore is in a name in lower case. -/
theorem IsName.not_mem_lowerParts (h : IsName s) (mark : Char)
    (hmark : Text.isNameChar mark = false) (hpos : 0 < mark.toNat) (hlt : mark.toNat < 97) :
    ∀ part ∈ Text.lowerParts s, mark ∉ part.toList := by
  intro part hpart hmem
  obtain ⟨word, hword, rfl⟩ := List.mem_map.1 hpart
  rw [Text.toList_lowercase] at hmem
  obtain ⟨c, hc, hmem⟩ := List.mem_flatMap.1 hmem
  exact Text.not_mem_lower (isNameChar_of_isWordChar (h.isWordChar hword hc)) hmark hpos hlt hmem

/-- Names have the same words in lower case when they are equal in lower case. -/
theorem lowerParts_eq_iff (hs : IsName s) (ht : IsName t) :
    Text.lowerParts s = Text.lowerParts t ↔ Text.lowercase s = Text.lowercase t := by
  rw [← Text.intercalate_lowerParts s, ← Text.intercalate_lowerParts t]
  refine ⟨fun h => h ▸ rfl, Text.intercalate_injective (c := '.') rfl ?_ ?_
    (Text.lowerParts_ne_nil s) (Text.lowerParts_ne_nil t)⟩
  · exact hs.not_mem_lowerParts '.' (by decide) (by decide) (by decide)
  · exact ht.not_mem_lowerParts '.' (by decide) (by decide) (by decide)

/-- The characters of a dotted name are those of words, and dots. -/
theorem isWordChar_or_eq_dot (h : isDotted s = true) {c : Char} (hc : c ∈ s.toList) :
    isWordChar c = true ∨ c = '.' := by
  rw [← Text.intercalate_cut '.' s.toList] at hc
  rcases Text.mem_intercalate hc with hc | ⟨part, hpart, hc⟩
  · exact Or.inr (List.mem_singleton.1 hc)
  · have hmem : String.ofList part ∈ Text.split '.' s := List.mem_map_of_mem hpart
    exact Or.inl (IsName.isWordChar (Or.inr h) hmem (by rwa [String.toList_ofList]))

/-- The words of the slug of a dotted name are its words in lower case. -/
theorem slugWords_of_isDotted (h : isDotted s = true) : Text.slugWords s = Text.lowerParts s := by
  have hcut : Text.cut (fun c => !Text.isNameChar c) s.toList = Text.cut (· == '.') s.toList := by
    refine Text.cut_congr fun c hc => ?_
    rcases isWordChar_or_eq_dot h hc with hword | rfl
    · rw [isNameChar_of_isWordChar hword, beq_eq_false_iff_ne.2 (ne_dot_of_isWordChar hword)]
      rfl
    · decide
  have hfilter : (Text.cut (· == '.') s.toList).filter (!·.isEmpty) =
      Text.cut (· == '.') s.toList := by
    refine List.filter_eq_self.2 fun part hpart => ?_
    have hword := List.all_eq_true.1 h (String.ofList part) (List.mem_map_of_mem hpart)
    have hne := (isWord_iff.1 hword).1
    cases part with
    | nil => exact absurd rfl hne
    | cons c part => rfl
  rw [Text.slugWords, Text.words, hcut, hfilter, Text.lowerParts, Text.split, List.map_map]
  refine List.map_congr_left fun part _ => ?_
  simp [Text.lowercase]

/-- The slug of a name has its words in lower case. -/
theorem IsName.slugify_eq (h : IsName s) :
    Text.slugify s = "-".intercalate (Text.lowerParts s) := by
  rcases h with rfl | h
  · rfl
  · rw [Text.slugify_eq_intercalate, slugWords_of_isDotted h]

end Proto

/-! ## Anchors of names -/

namespace Anchor

open Proto

/-- The anchor of a name under a label. -/
def named (label name : String) : String :=
  "-".intercalate ("content" :: label :: Text.lowerParts name)

/-- Anchors of names are equal when the labels are and the names are, case aside. -/
theorem named_eq_iff {label label' s t : String} (hl : '-' ∉ label.toList)
    (hl' : '-' ∉ label'.toList) (hs : IsName s) (ht : IsName t) :
    named label s = named label' t ↔ label = label' ∧ Text.lowercase s = Text.lowercase t := by
  have hcontent : '-' ∉ "content".toList := by decide
  have hparts := hs.not_mem_lowerParts '-' (by decide) (by decide) (by decide)
  have hparts' := ht.not_mem_lowerParts '-' (by decide) (by decide) (by decide)
  rw [← lowerParts_eq_iff hs ht]
  constructor
  · intro h
    have hwords := Text.intercalate_injective (c := '-') rfl
      (List.forall_mem_cons.2 ⟨hcontent, List.forall_mem_cons.2 ⟨hl, hparts⟩⟩)
      (List.forall_mem_cons.2 ⟨hcontent, List.forall_mem_cons.2 ⟨hl', hparts'⟩⟩)
      (List.cons_ne_nil _ _) (List.cons_ne_nil _ _) h
    exact List.cons.inj (List.cons.inj hwords).2
  · rintro ⟨rfl, h⟩
    rw [named, named, h]

theorem not_mem_label (kind : Kind) : '-' ∉ kind.label.toList := by
  cases kind <;> decide

theorem label_injective {kind kind' : Kind} (h : kind.label = kind'.label) : kind = kind' := by
  revert h
  cases kind <;> cases kind' <;> decide

theorem label_ne_oneof (kind : Kind) : kind.label ≠ "Oneof" := by
  cases kind <;> decide

/-- Anchors under kinds are equal when the kinds are and the names are, case aside. -/
theorem named_label_eq_iff {kind kind' : Kind} {s t : String} (hs : IsName s) (ht : IsName t) :
    named kind.label s = named kind'.label t ↔
      kind = kind' ∧ Text.lowercase s = Text.lowercase t := by
  rw [named_eq_iff (not_mem_label kind) (not_mem_label kind') hs ht]
  exact and_congr_left fun _ => ⟨label_injective, fun h => h ▸ rfl⟩

/-- The anchor of a group of fields is that of no name under a kind. -/
theorem named_oneof_ne_named_label (kind : Kind) {s t : String} (hs : IsName s) (ht : IsName t) :
    named "Oneof" s ≠ named kind.label t := by
  rw [Ne, named_eq_iff (by decide) (not_mem_label kind) hs ht]
  exact fun h => label_ne_oneof kind h.1.symm

/-- The anchor of a section is that of no name. -/
theorem ofKind_ne_named (kind : Kind) {label name : String} (hl : '-' ∉ label.toList)
    (h : IsName name) : ofKind kind ≠ named label name := by
  have hkind : ofKind kind = "-".intercalate ["content", kind.label] := by
    cases kind <;> rfl
  have hcontent : '-' ∉ "content".toList := by decide
  rw [hkind, named]
  intro heq
  have hwords := Text.intercalate_injective (c := '-') rfl
    (List.forall_mem_cons.2 ⟨hcontent, List.forall_mem_singleton.2 (not_mem_label kind)⟩)
    (List.forall_mem_cons.2 ⟨hcontent, List.forall_mem_cons.2
      ⟨hl, h.not_mem_lowerParts '-' (by decide) (by decide) (by decide)⟩⟩)
    (List.cons_ne_nil _ _) (List.cons_ne_nil _ _) heq
  exact Text.lowerParts_ne_nil name (List.cons.inj (List.cons.inj hwords).2).2.symm

theorem group_eq_named (kind : Kind) {package : String} (h : IsName package) :
    group kind package = named kind.label package := by
  have hkind : ofKind kind = "content" ++ "-" ++ kind.label := by
    cases kind <;> rfl
  rw [group, h.slugify_eq, hkind, named, String.intercalate_cons_cons,
    String.intercalate_cons_of_ne_nil (Text.lowerParts_ne_nil package)]
  simp only [String.append_assoc]

theorem declaration_eq_named_nameIn (kind : Kind) {package name : String}
    (h : isDotted (nameIn package name) = true) :
    declaration kind package name = named kind.label (nameIn package name) := by
  have hjoin := join_slugify (label_ne_empty kind) [package, name]
  rw [List.flatMap_cons, List.flatMap_singleton, ← Text.slugWords_nameIn, slugWords_of_isDotted h]
    at hjoin
  exact hjoin

theorem declaration_eq_named {d : Declaration} (h : isDotted d.fullName = true) :
    declaration d.kind d.package d.name = named d.kind.label d.fullName :=
  declaration_eq_named_nameIn d.kind h

theorem oneof_eq_named {message : String} (h : isDotted message = true) {name : String}
    (hname : isWord name = true) : oneof message name = named "Oneof" (message ++ "." ++ name) := by
  have hjoin := join_slugify (by decide : "Oneof" ≠ "") [message, name]
  rw [List.flatMap_cons, List.flatMap_singleton, ← Text.slugWords_dot,
    slugWords_of_isDotted (isDotted_append h (isDotted_of_isWord hname))] at hjoin
  exact hjoin

/-- Groups of fields have one anchor when their messages have one name and they do, case aside. -/
theorem oneof_eq_iff {m n : String} (hm : isDotted m = true) (hn : isDotted n = true) {a b : String}
    (ha : isWord a = true) (hb : isWord b = true) :
    oneof m a = oneof n b ↔
      Text.lowercase m = Text.lowercase n ∧ Text.lowercase a = Text.lowercase b := by
  have hword : ∀ {w : String}, isWord w = true → Text.lowerParts w = [Text.lowercase w] := by
    intro w hw
    rw [Text.lowerParts, split_of_isWord hw, List.map_singleton]
  have hma := isDotted_append hm (isDotted_of_isWord ha)
  have hnb := isDotted_append hn (isDotted_of_isWord hb)
  rw [oneof_eq_named hm ha, oneof_eq_named hn hb,
    named_eq_iff (by decide) (by decide) (Or.inr hma) (Or.inr hnb),
    ← lowerParts_eq_iff (Or.inr hma) (Or.inr hnb), ← lowerParts_eq_iff (Or.inr hm) (Or.inr hn),
    Text.lowerParts_append_dot, Text.lowerParts_append_dot, hword ha, hword hb]
  constructor
  · rintro ⟨-, h⟩
    obtain ⟨hfull, hlast⟩ := List.append_inj' h rfl
    exact ⟨hfull, (List.cons.inj hlast).1⟩
  · rintro ⟨hfull, hlast⟩
    exact ⟨rfl, by rw [hfull, hlast]⟩

end Anchor

/-- The package of a dotted name is a name. -/
theorem Declaration.isName_package {d : Declaration} (h : Proto.isDotted d.fullName = true) :
    Proto.IsName d.package := by
  unfold fullName SchemaFile.qualify at h
  split at h
  · rename_i hempty
    exact Or.inl hempty
  · unfold Proto.isDotted at h
    rw [Proto.split_append_dot, List.all_append, Bool.and_eq_true] at h
    exact Or.inr h.1

end SchemaPage
