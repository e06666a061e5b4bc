import SchemaPage.Page.Anchor
import SchemaPage.Text.Escape

/-!
# Texts that markup can hold

Two kinds of text are written into markup as they are: texts that have been escaped, and anchors,
which are not escaped.  An anchor needs no escaping because a slug has no sign of markup: it is made
of letters, digits and underscores in lower case, and the lower case of a character is the character
itself or lies beyond the signs.

* `Text.IsClean`: no sign of markup but for the ampersands of entities.
* `Text.isClean_escape`: an escaped text is clean.
* `Text.IsPlain`: no sign of markup at all.
* `Text.isPlain_slugify`: a slug is plain.
* `Anchor.isPlain_ofKind` and so on: an anchor is plain.
-/

namespace SchemaPage
namespace Text

/-- The characters that markup gives a meaning to. -/
def signs : List Char := ['"', '&', '\'', '<', '>']

/-- The entities that stand for them. -/
def entities : List (List Char) := signs.map escapeChar

/-- The text has no sign of markup, except that every ampersand begins an entity. -/
structure IsClean (cs : List Char) : Prop where
  eq_ampersand : ∀ c ∈ cs, c ∈ signs → c = '&'
  begins_entity : ∀ before after, cs = before ++ '&' :: after → ∃ e ∈ entities, e <+: '&' :: after

/-- The text has no sign of markup. -/
def IsPlain (cs : List Char) : Prop := ∀ c ∈ cs, c ∉ signs

instance (cs : List Char) : Decidable (IsPlain cs) := List.decidableBAll (· ∉ signs) cs

theorem IsPlain.isClean {cs : List Char} (h : IsPlain cs) : IsClean cs where
  eq_ampersand c hc hsign := absurd hsign (h c hc)
  begins_entity before after heq := by
    have hmem : '&' ∈ cs := heq ▸ List.mem_append_right before List.mem_cons_self
    exact absurd (by decide : '&' ∈ signs) (h '&' hmem)

/-! ## Escaped texts -/

theorem isClean_nil : IsClean [] := IsPlain.isClean fun _ hc => absurd hc List.not_mem_nil

/-- Clean texts one after the other: an entity does not reach beyond the text that it begins in. -/
theorem IsClean.append {l r : List Char} (hl : IsClean l) (hr : IsClean r) : IsClean (l ++ r) where
  eq_ampersand c hc := (List.mem_append.1 hc).elim (hl.eq_ampersand c) (hr.eq_ampersand c)
  begins_entity before after heq := by
    rcases List.append_eq_append_iff.1 heq with ⟨rest, hbefore, hrest⟩ | ⟨rest, hl', hrest⟩
    · exact hr.begins_entity rest after hrest
    · cases rest with
      | nil =>
        rw [List.nil_append] at hrest
        exact hr.begins_entity [] after hrest.symm
      | cons c rest =>
        obtain ⟨rfl, rfl⟩ := List.cons.inj hrest
        obtain ⟨e, he, hprefix⟩ := hl.begins_entity before rest hl'
        exact ⟨e, he, hprefix.trans ⟨r, rfl⟩⟩

/-- An entity has one ampersand, at its start. -/
theorem isClean_of_mem_entities {e : List Char} (h : e ∈ entities) : IsClean e := by
  have hall : (entities.all fun e => e.all fun c => c ∉ signs ∨ c = '&') = true := by decide
  have hsigns : ∀ e ∈ entities, ∀ c ∈ e, c ∈ signs → c = '&' := by
    intro e he c hc hsign
    have hc := List.all_eq_true.1 (List.all_eq_true.1 hall e he) c hc
    exact (of_decide_eq_true hc).resolve_left fun hnot => hnot hsign
  have htail : ∀ e ∈ entities, e.head? = some '&' ∧ '&' ∉ e.tail := by decide
  refine ⟨hsigns e h, fun before after heq => ?_⟩
  obtain ⟨-, hnot⟩ := htail e h
  cases before with
  | nil => exact ⟨e, h, heq ▸ List.prefix_refl e⟩
  | cons c before =>
    rw [heq, List.cons_append, List.tail_cons] at hnot
    exact absurd (List.mem_append_right before List.mem_cons_self) hnot

/-- A character is written as an entity or, when it is no sign, as it is. -/
theorem isClean_escapeChar (c : Char) : IsClean (escapeChar c) := by
  by_cases hc : c ∈ signs
  · exact isClean_of_mem_entities (List.mem_map_of_mem hc)
  · have hself : escapeChar c = [c] := by
      unfold escapeChar
      split <;> first | exact absurd (by decide) hc | rfl
    rw [hself]
    refine IsPlain.isClean fun x hx => ?_
    rwa [List.mem_singleton.1 hx]

/-- An escaped text is clean. -/
theorem isClean_escape (s : String) : IsClean (escape s).toList := by
  rw [escape, String.toList_ofList]
  induction s.toList with
  | nil => exact isClean_nil
  | cons c cs ih => exact (isClean_escapeChar c).append ih

/-! ## Slugs -/

/-- Every run of capitals leads to small letters. -/
theorem le_lowerFirst_of_mem {run : CaseRun} (h : run ∈ caseRuns) : 97 ≤ run.lowerFirst := by
  have hall : (caseRuns.all fun run => 97 ≤ run.lowerFirst) = true := by decide +kernel
  simpa using List.all_eq_true.1 hall run h

theorem toNat_ofNat_eq (n : Nat) : (Char.ofNat n).toNat = n ∨ (Char.ofNat n).toNat = 0 := by
  by_cases h : n.isValidChar
  · rw [Char.ofNat, dif_pos h]
    exact Or.inl rfl
  · rw [Char.ofNat, dif_neg h]
    exact Or.inr rfl

/-- What a character becomes in lower case is the character itself, or lies beyond the capitals and
marks of the basic alphabet. -/
theorem eq_or_le_of_mem_lower {c x : Char} (h : x ∈ lower c) :
    x = c ∨ x.toNat = 0 ∨ 97 ≤ x.toNat := by
  unfold lower at h
  split at h
  · rcases List.mem_cons.1 h with rfl | h
    · exact Or.inr (Or.inr (by decide))
    · obtain rfl := List.mem_singleton.1 h
      exact Or.inr (Or.inr (by decide))
  · split at h
    · rename_i run hrun
      obtain rfl := List.mem_singleton.1 h
      have hfirst := le_lowerFirst_of_mem (List.mem_of_find?_eq_some hrun)
      rcases toNat_ofNat_eq (c.toNat - run.first + run.lowerFirst) with hx | hx
      · rw [hx]
        omega
      · exact Or.inr (Or.inl hx)
    · exact Or.inl (List.mem_singleton.1 h)

/-- The lower case of a name has no mark of the basic alphabet that stands before its letters and is
in no name. -/
theorem not_mem_lower {c mark : Char} (hc : isNameChar c = true) (hmark : isNameChar mark = false)
    (hpos : 0 < mark.toNat) (hlt : mark.toNat < 97) : mark ∉ lower c := by
  intro hmem
  rcases eq_or_le_of_mem_lower hmem with rfl | h | h
  · rw [hc] at hmark
    exact absurd hmark (by decide)
  · omega
  · omega

/-- The words of a text consist of name characters. -/
theorem isNameChar_of_mem_words {cs word : List Char} {c : Char} (hword : word ∈ words cs)
    (hc : c ∈ word) : isNameChar c = true := by
  have hpart := (List.mem_filter.1 hword).1
  simpa using not_of_mem_cut hpart hc

/-- A slug has no mark of the basic alphabet but hyphens. -/
theorem not_mem_slugify {mark : Char} (hmark : isNameChar mark = false) (hpos : 0 < mark.toNat)
    (hlt : mark.toNat < 97) (hhyphen : mark ≠ '-') (s : String) : mark ∉ (slugify s).toList := by
  rw [slugify, String.toList_ofList, slugChars]
  intro hmem
  rcases mem_intercalate hmem with hsep | ⟨part, hpart, hmem⟩
  · exact hhyphen (List.mem_singleton.1 hsep)
  · obtain ⟨word, hword, rfl⟩ := List.mem_map.1 hpart
    obtain ⟨c, hc, hmem⟩ := List.mem_flatMap.1 hmem
    exact not_mem_lower (isNameChar_of_mem_words hword hc) hmark hpos hlt hmem

/-- A slug is plain. -/
theorem isPlain_slugify (s : String) : IsPlain (slugify s).toList := by
  have hall : (signs.all fun c => isNameChar c = false ∧ 0 < c.toNat ∧ c.toNat < 97 ∧ c ≠ '-') =
      true := by
    decide
  intro c hc hsign
  obtain ⟨hname, hpos, hlt, hhyphen⟩ := of_decide_eq_true (List.all_eq_true.1 hall c hsign)
  exact not_mem_slugify hname hpos hlt hhyphen s hc

end Text

/-! ## Anchors -/

namespace Anchor

open Text

/-- Parts that are plain make a plain anchor. -/
theorem isPlain_join {parts : List String} (h : ∀ part ∈ parts, IsPlain part.toList) :
    IsPlain (join parts).toList := by
  intro c hc
  rw [join, String.toList_intercalate] at hc
  rcases mem_intercalate hc with hsep | ⟨part, hpart, hc⟩
  · obtain rfl : c = '-' := by simpa using hsep
    decide
  · obtain ⟨name, hname, rfl⟩ := List.mem_map.1 hpart
    exact h name (List.mem_filter.1 hname).1 c hc

theorem isPlain_label (kind : Kind) : IsPlain kind.label.toList := by
  cases kind <;> decide

theorem isPlain_content : IsPlain "content".toList := by decide

theorem isPlain_ofKind (kind : Kind) : IsPlain (ofKind kind).toList :=
  isPlain_join (List.forall_mem_cons.2 ⟨isPlain_content,
    List.forall_mem_singleton.2 (isPlain_label kind)⟩)

theorem isPlain_group (kind : Kind) (package : String) : IsPlain (group kind package).toList := by
  intro c hc
  rw [group, String.toList_append, String.toList_append, List.mem_append, List.mem_append] at hc
  rcases hc with (hc | hc) | hc
  · exact isPlain_ofKind kind c hc
  · obtain rfl : c = '-' := by simpa using hc
    decide
  · exact isPlain_slugify package c hc

/-- Slugs after a plain label make a plain anchor. -/
theorem isPlain_join_slugify {label : String} (hlabel : IsPlain label.toList)
    (parts : List String) :
    IsPlain (join ("content" :: label :: parts.map slugify)).toList := by
  refine isPlain_join (List.forall_mem_cons.2 ⟨isPlain_content,
    List.forall_mem_cons.2 ⟨hlabel, fun part hpart => ?_⟩⟩)
  obtain ⟨s, -, rfl⟩ := List.mem_map.1 hpart
  exact isPlain_slugify s

theorem isPlain_declaration (kind : Kind) (package name : String) :
    IsPlain (declaration kind package name).toList :=
  isPlain_join_slugify (isPlain_label kind) [package, name]

theorem isPlain_ofType (d : Declaration) : IsPlain (ofType d).toList :=
  isPlain_join_slugify (isPlain_label (bucket d.kind)) [d.fullName]

theorem isPlain_oneof (messageName oneofName : String) :
    IsPlain (oneof messageName oneofName).toList :=
  isPlain_join_slugify (by decide) [messageName, oneofName]

end Anchor
end SchemaPage
