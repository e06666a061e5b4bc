import SchemaPage.Page.Anchor
import SchemaPage.Schema.Scope

/-!
# Anchors of full names

A link to a declaration is made from its full name, while its block is named from its package and
its name.  Both are lists of words with hyphens between them, and the dot that stands between
package and name separates words as the hyphen does.  So the two are one anchor.

* `slugWords`, `slugify_eq_intercalate`: a slug is a list of words, none of which is empty.
* `slugWords_append_cons`: a character that no name contains separates the words on its two sides.
* `Anchor.join_map_intercalate`: joining slugs joins their words.
* `Anchor.ofType_eq_declaration`: a link to an enum or to a message is the anchor of its block.
-/

namespace SchemaPage

/-! ## Slugs as words -/

namespace Text

/-- The words of a slug. -/
def slugWords (s : String) : List String :=
  (words s.toList).map fun word => String.ofList (word.flatMap lower)

theorem slugify_eq_intercalate (s : String) : slugify s = "-".intercalate (slugWords s) := by
  rw [← String.toList_inj, String.toList_intercalate, slugify, String.toList_ofList, slugChars,
    slugWords, List.map_map]
  have hmap : String.toList ∘ (fun word : List Char => String.ofList (word.flatMap lower)) =
      fun word => word.flatMap lower := by
    funext word
    exact String.toList_ofList
  rw [hmap]
  rfl

theorem ne_nil_of_mem_words {cs word : List Char} (h : word ∈ words cs) : word ≠ [] := by
  rintro rfl
  simp [words] at h

/-- No word of a slug is empty. -/
theorem ne_empty_of_mem_slugWords {s w : String} (h : w ∈ slugWords s) : w ≠ "" := by
  obtain ⟨word, hword, rfl⟩ := List.mem_map.1 h
  obtain ⟨c, cs, rfl⟩ := List.exists_cons_of_ne_nil (ne_nil_of_mem_words hword)
  rw [Ne, ← String.toList_inj, String.toList_ofList]
  intro hnil
  exact lower_ne_nil c (List.append_eq_nil_iff.1 hnil).1

@[simp] theorem slugWords_empty : slugWords "" = [] := rfl

/-- A character that no name contains separates the words on its two sides. -/
theorem slugWords_append_cons {c : Char} (h : isNameChar c = false) (l r : List Char) :
    slugWords (String.ofList (l ++ c :: r)) =
      slugWords (String.ofList l) ++ slugWords (String.ofList r) := by
  simp only [slugWords, String.toList_ofList, words_append_cons h, List.map_append]

theorem slugWords_dot (a b : String) : slugWords (a ++ "." ++ b) = slugWords a ++ slugWords b := by
  have h := slugWords_append_cons (c := '.') (by decide) a.toList b.toList
  have htext : a ++ "." ++ b = String.ofList (a.toList ++ '.' :: b.toList) := by
    rw [← String.toList_inj]
    simp
  rw [htext, h, String.ofList_toList, String.ofList_toList]

/-- A name in a scope has the words of the scope and then its own. -/
theorem slugWords_nameIn (scope name : String) :
    slugWords (nameIn scope name) = slugWords scope ++ slugWords name := by
  unfold nameIn
  split
  · rename_i h
    rw [h, slugWords_empty, List.nil_append]
  · exact slugWords_dot _ _

end Text

/-! ## Joining -/

/-- Words that are not empty make an empty text only when there are none. -/
theorem intercalate_eq_empty_iff {ws : List String} (h : ∀ w ∈ ws, w ≠ "") :
    "-".intercalate ws = "" ↔ ws = [] := by
  constructor
  · intro hempty
    cases ws with
    | nil => rfl
    | cons w ws =>
      exfalso
      refine h w List.mem_cons_self ?_
      by_cases hws : ws = []
      · rwa [hws, String.intercalate_singleton] at hempty
      · rw [String.intercalate_cons_of_ne_nil hws] at hempty
        exact (String.append_eq_empty_iff.1 (String.append_eq_empty_iff.1 hempty).1).1
  · rintro rfl
    exact String.intercalate_nil

namespace Anchor

/-- Joining parts that are made of words joins the words. -/
theorem join_map_intercalate (parts : List (List String)) (h : ∀ ws ∈ parts, ∀ w ∈ ws, w ≠ "") :
    join (parts.map ("-".intercalate ·)) = "-".intercalate parts.flatten := by
  induction parts with
  | nil => rfl
  | cons ws parts ih =>
    have hws := h ws List.mem_cons_self
    have hparts : ∀ ws ∈ parts, ∀ w ∈ ws, w ≠ "" := fun v hv => h v (List.mem_cons_of_mem _ hv)
    specialize ih hparts
    unfold join at ih ⊢
    rw [List.map_cons, List.filter_cons, List.flatten_cons]
    by_cases hnil : ws = []
    · rw [hnil, String.intercalate_nil, List.nil_append]
      simpa using ih
    · have hne : ("-".intercalate ws != "") = true :=
        bne_iff_ne.2 (mt (intercalate_eq_empty_iff hws).1 hnil)
      rw [if_pos hne]
      by_cases hrest : parts.flatten = []
      · have hall : ∀ v ∈ parts, v = [] := List.flatten_eq_nil_iff.1 hrest
        have hfilter : (parts.map ("-".intercalate ·)).filter (· != "") = [] := by
          refine List.filter_eq_nil_iff.2 fun s hs => ?_
          obtain ⟨v, hv, rfl⟩ := List.mem_map.1 hs
          simp [hall v hv]
        rw [hfilter, String.intercalate_singleton, hrest, List.append_nil]
      · have hfilter : (parts.map ("-".intercalate ·)).filter (· != "") ≠ [] := by
          intro hfilter
          rw [hfilter, String.intercalate_nil] at ih
          exact hrest ((intercalate_eq_empty_iff fun w hw => by
            obtain ⟨v, hv, hw⟩ := List.mem_flatten.1 hw
            exact hparts v hv w hw).1 ih.symm)
        rw [String.intercalate_cons_of_ne_nil hfilter, ih,
          String.intercalate_append_of_ne_nil hnil hrest]

theorem label_ne_empty (kind : Kind) : kind.label ≠ "" := by
  cases kind <;> decide

/-- An anchor is the list of the words of its parts. -/
theorem join_slugify {label : String} (hlabel : label ≠ "") (parts : List String) :
    join ("content" :: label :: parts.map Text.slugify) =
      "-".intercalate ("content" :: label :: parts.flatMap Text.slugWords) := by
  have h := join_map_intercalate (["content"] :: [label] :: parts.map Text.slugWords) (by
    simp only [List.mem_cons]
    rintro ws (rfl | rfl | hws) w hw
    · rw [List.mem_singleton.1 hw]
      decide
    · rwa [List.mem_singleton.1 hw]
    · obtain ⟨s, -, rfl⟩ := List.mem_map.1 hws
      exact Text.ne_empty_of_mem_slugWords hw)
  have hslug : (fun s => "-".intercalate (Text.slugWords s)) = Text.slugify :=
    funext fun s => (Text.slugify_eq_intercalate s).symm
  rw [List.map_cons, List.map_cons, List.map_map, Function.comp_def, hslug,
    String.intercalate_singleton, String.intercalate_singleton] at h
  exact h

/-- A full name has the words of the package and then those of the name. -/
theorem slugWords_fullName (d : Declaration) :
    Text.slugWords d.fullName = Text.slugWords d.package ++ Text.slugWords d.name :=
  Text.slugWords_nameIn d.package d.name

/-- A link to an enum or to a message is the anchor of its block. -/
theorem ofType_eq_declaration (d : Declaration) :
    ofType d = declaration (bucket d.kind) d.package d.name := by
  have hlink := join_slugify (label_ne_empty (bucket d.kind)) [d.fullName]
  have hblock := join_slugify (label_ne_empty (bucket d.kind)) [d.package, d.name]
  simp only [List.flatMap_cons, List.flatMap_nil, List.append_nil,
    slugWords_fullName] at hlink hblock
  exact hlink.trans hblock.symm

end Anchor
end SchemaPage
