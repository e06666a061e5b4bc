import Mathlib.Data.List.Basic
import SchemaPage.Proofs.Page.Anchor
import SchemaPage.Proofs.Text.Clean

/-!
# Slugs of joined texts

A text with a separator in it has the slug that the texts on its two sides make together.  The
hyphen between them is not always there: a side of separators only has an empty slug, and then the
other slug stands alone.  `Anchor.join` leaves out what is empty in the same way, so a link made
from a full name and the anchor made from its parts agree also where a package or a name has no word
at all.

A slug has hyphens between its words only, and so it has none at its ends and never two together.

* `Text.Between`: an element that stands between others only.
* `Text.between_intercalate`: so does a separator between parts that are not empty and do not have
  it.
* `Text.between_slugify`: so does the hyphen in a slug.
* `Text.slugify_append_cons`: the slug of a text with a separator in it.
* `Anchor.ofType_eq_of_slugify`: links and blocks agree, and what this rests on.
-/

namespace SchemaPage

/-! ## Separators -/

namespace Text

/-- The element `c` stands between other elements only: it is neither first nor last, and never
beside itself. -/
structure Between {α : Type} (c : α) (l : List α) : Prop where
  head : l.head? ≠ some c
  last : l.getLast? ≠ some c
  single : ¬ [c, c] <:+: l

section Between

variable {α : Type} {c : α}

theorem Between.of_notMem {l : List α} (h : c ∉ l) : Between c l where
  head heq := h (List.mem_of_head? heq)
  last heq := h (List.mem_of_getLast? heq)
  single hpair := h (List.IsInfix.subset hpair List.mem_cons_self)

/-- A part without the element and what the element follows in it. -/
theorem Between.append_cons {part rest : List α} (hpart : part ≠ []) (hc : c ∉ part)
    (hrest : rest ≠ []) (h : Between c rest) : Between c (part ++ c :: rest) where
  head heq := by
    rw [List.head?_append_of_ne_nil _ hpart] at heq
    exact hc (List.mem_of_head? heq)
  last heq := by
    obtain ⟨a, as, rfl⟩ := List.exists_cons_of_ne_nil hrest
    rw [List.getLast?_append_cons, List.getLast?_cons_cons] at heq
    exact h.last heq
  single := by
    rintro ⟨before, after, heq⟩
    rw [List.append_assoc, List.cons_append, List.singleton_append] at heq
    -- the first of the two stands in the part, at its end, or in the rest
    rcases List.append_eq_append_iff.1 heq with ⟨more, hmore, htail⟩ | ⟨more, hbefore, htail⟩
    · cases more with
      | nil =>
        obtain ⟨-, rfl⟩ := List.cons.inj htail
        exact h.head rfl
      | cons a more =>
        obtain ⟨rfl, -⟩ := List.cons.inj htail
        exact hc (hmore ▸ List.mem_append_right before List.mem_cons_self)
    · cases more with
      | nil =>
        obtain ⟨-, rfl⟩ := List.cons.inj htail
        exact h.head rfl
      | cons a more =>
        obtain ⟨-, rfl⟩ := List.cons.inj htail
        exact h.single ⟨more, after, by simp⟩

/-- The separator between parts that are not empty and do not have it. -/
theorem between_intercalate {parts : List (List α)} (hne : ∀ part ∈ parts, part ≠ [])
    (hc : ∀ part ∈ parts, c ∉ part) : Between c ([c].intercalate parts) := by
  induction parts with
  | nil => exact .of_notMem List.not_mem_nil
  | cons part parts ih =>
    have hpart := hc part List.mem_cons_self
    cases parts with
    | nil =>
      rw [List.intercalate_singleton]
      exact .of_notMem hpart
    | cons next parts =>
      have hnext := hne next (List.mem_cons_of_mem _ List.mem_cons_self)
      have hrest : [c].intercalate (next :: parts) ≠ [] := by
        cases parts with
        | nil => rwa [List.intercalate_singleton]
        | cons _ _ =>
          rw [List.intercalate_cons_cons]
          simp
      rw [List.intercalate_cons_cons, List.append_assoc, List.singleton_append]
      exact .append_cons (hne part List.mem_cons_self) hpart hrest
        (ih (fun p hp => hne p (List.mem_cons_of_mem _ hp)) fun p hp =>
          hc p (List.mem_cons_of_mem _ hp))

end Between

/-! ## Slugs -/

/-- A slug has hyphens between its words only. -/
theorem between_slugify (s : String) : Between '-' (slugify s).toList := by
  rw [slugify, String.toList_ofList, slugChars]
  refine between_intercalate (fun part hpart => ?_) fun part hpart => ?_
  · obtain ⟨word, hword, rfl⟩ := List.mem_map.1 hpart
    obtain ⟨c, cs, rfl⟩ := List.exists_cons_of_ne_nil (ne_nil_of_mem_words hword)
    rw [List.flatMap_cons]
    exact List.append_ne_nil_of_left_ne_nil (lower_ne_nil c) _
  · obtain ⟨word, hword, rfl⟩ := List.mem_map.1 hpart
    intro hmem
    obtain ⟨c, hc, hmem⟩ := List.mem_flatMap.1 hmem
    exact not_mem_lower (isNameChar_of_mem_words hword hc) (by decide) (by decide) (by decide) hmem

/-- The slug of a text with a separator in it is made of the slugs of the two sides, as far as these
are not empty. -/
theorem slugify_append_cons {c : Char} (h : isNameChar c = false) (a b : String) :
    slugify (a ++ String.singleton c ++ b) = Anchor.join [slugify a, slugify b] := by
  have htext : a ++ String.singleton c ++ b = String.ofList (a.toList ++ c :: b.toList) := by
    rw [← String.toList_inj]
    simp
  have hwords : slugWords (a ++ String.singleton c ++ b) = slugWords a ++ slugWords b := by
    rw [htext, slugWords_append_cons h, String.ofList_toList, String.ofList_toList]
  have hjoin := Anchor.join_map_intercalate [slugWords a, slugWords b] (by
    simp only [List.mem_cons, List.not_mem_nil, or_false]
    rintro ws (rfl | rfl) w hw <;> exact ne_empty_of_mem_slugWords hw)
  calc slugify (a ++ String.singleton c ++ b)
      = "-".intercalate (slugWords a ++ slugWords b) := by rw [slugify_eq_intercalate, hwords]
    _ = Anchor.join ([slugWords a, slugWords b].map ("-".intercalate ·)) := by
      rw [hjoin, List.flatten_cons, List.flatten_singleton]
    _ = Anchor.join [slugify a, slugify b] := by
      rw [slugify_eq_intercalate a, slugify_eq_intercalate b]
      rfl

end Text

/-! ## Links and blocks -/

namespace Anchor

open Text

/-- A link to an enum or to a message, which is made from its full name, is the anchor of its block,
which is made from its package and its name, whatever characters these have.  This rests on how the
slug of a text with a separator in it is made, and a slug never begins or ends with a hyphen or has
two of them together. -/
theorem ofType_eq_of_slugify :
    (∀ d : Declaration, d.kind = .enumeration ∨ d.kind = .message →
      ofType d = declaration d.kind d.package d.name) ∧
    (∀ (a b : String) (c : Char), isAlphanumeric c = false → c ≠ '_' →
      slugify (a ++ String.singleton c ++ b) = join [slugify a, slugify b]) ∧
    ∀ s : String, Between '-' (slugify s).toList := by
  refine ⟨fun d hkind => ?_, fun a b c hc hunderscore => ?_, between_slugify⟩
  · have hbucket : bucket d.kind = d.kind := by
      rcases hkind with hkind | hkind <;> rw [hkind] <;> rfl
    rw [ofType_eq_declaration, hbucket]
  · refine slugify_append_cons ?_ a b
    rw [isNameChar, hc, beq_eq_false_iff_ne.2 hunderscore]
    rfl

/-- A message in a package of dots only, whose name has dots at its ends, a run of separators and a
letter that is two in lower case. -/
def dottedMessage : Declaration :=
  ⟨⟨"a.proto", "..", .owned, [], [], []⟩, .message ⟨".İ. +x_Y.", [], none⟩⟩

/-- Its link is the anchor of its block, in which the package has no part. -/
theorem ofType_dottedMessage :
    (dottedMessage.kind = .enumeration ∨ dottedMessage.kind = .message) ∧
      ofType dottedMessage = declaration .message ".." ".İ. +x_Y." ∧
      ofType dottedMessage = "content-Message-i\u0307-x_y" := by
  have hkind : dottedMessage.kind = .enumeration ∨ dottedMessage.kind = .message := by decide
  exact ⟨hkind, ofType_eq_of_slugify.1 dottedMessage hkind, by decide +kernel⟩

end Anchor
end SchemaPage
