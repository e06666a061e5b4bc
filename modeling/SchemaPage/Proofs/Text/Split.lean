import Mathlib.Data.List.Basic
import SchemaPage.Text.Split

/-!
# Splitting and joining

A text is split at a character, and texts are joined with it between them.  Each of the two takes
back what the other has done, the one always and the other when the character is in none of the
parts.

* `Text.split_intercalate`: parts without the separator are what a text made of them is split into.
* `Text.intercalate_split`: what a text is split into gives back the text.
* `Text.mem_of_mem_split`: the characters of the parts.
-/

namespace SchemaPage
namespace Text

theorem cut_intercalate {α : Type} [DecidableEq α] {sep : α} {parts : List (List α)}
    (hne : parts ≠ []) (h : ∀ part ∈ parts, sep ∉ part) :
    cut (· == sep) ([sep].intercalate parts) = parts := by
  have hone : ∀ {part : List α}, sep ∉ part → cut (· == sep) part = [part] := fun hpart =>
    cut_of_forall fun a ha => beq_eq_false_iff_ne.2 fun heq => hpart (heq ▸ ha)
  induction parts with
  | nil => exact absurd rfl hne
  | cons part parts ih =>
    have hpart := hone (h part List.mem_cons_self)
    cases parts with
    | nil => rwa [List.intercalate_singleton]
    | cons next parts =>
      rw [List.intercalate_cons_cons, List.append_assoc, List.singleton_append,
        cut_append_cons (q := (· == sep)) (beq_self_eq_true sep), hpart,
        ih (List.cons_ne_nil _ _) fun p hp => h p (List.mem_cons_of_mem _ hp),
        List.singleton_append]

/-- Parts without the separator are what a text made of them is split into. -/
theorem split_intercalate {sep : String} {c : Char} (hsep : sep.toList = [c]) {parts : List String}
    (hne : parts ≠ []) (h : ∀ part ∈ parts, c ∉ part.toList) :
    split c (sep.intercalate parts) = parts := by
  unfold split
  rw [String.toList_intercalate, hsep, cut_intercalate (mt List.map_eq_nil_iff.1 hne)
    (List.forall_mem_map.2 h), List.map_map]
  exact (List.map_congr_left fun part _ => String.ofList_toList).trans (List.map_id _)

/-- Putting the separator between the parts gives back the text. -/
theorem intercalate_split {sep : String} {c : Char} (hsep : sep.toList = [c]) (s : String) :
    sep.intercalate (split c s) = s := by
  have hparts : (split c s).map String.toList = cut (· == c) s.toList := by
    unfold split
    rw [List.map_map]
    exact (List.map_congr_left fun part _ => String.toList_ofList).trans (List.map_id _)
  rw [← String.toList_inj, String.toList_intercalate, hparts, hsep]
  exact intercalate_cut c s.toList

theorem split_ofList_append_cons (c : Char) (l r : List Char) :
    split c (String.ofList (l ++ c :: r)) =
      split c (String.ofList l) ++ split c (String.ofList r) := by
  unfold split
  simp only [String.toList_ofList]
  rw [cut_append_cons (q := (· == c)) (beq_self_eq_true c), List.map_append]

theorem mem_of_mem_cut {α : Type} {q : α → Bool} {a : α} {l part : List α} (hpart : part ∈ cut q l)
    (ha : a ∈ part) : a ∈ l := by
  induction l generalizing part with
  | nil =>
    obtain rfl := List.mem_singleton.1 hpart
    exact ha
  | cons b l ih =>
    cases hb : q b with
    | true =>
      rw [cut_cons_of_pos hb] at hpart
      rcases List.mem_cons.1 hpart with rfl | hpart
      · exact absurd ha List.not_mem_nil
      · exact List.mem_cons_of_mem b (ih hpart ha)
    | false =>
      obtain ⟨first, parts, hl⟩ := List.exists_cons_of_ne_nil (cut_ne_nil q l)
      rw [hl] at ih
      rw [cut_cons_of_neg hb hl] at hpart
      rcases List.mem_cons.1 hpart with rfl | hpart
      · rcases List.mem_cons.1 ha with rfl | ha
        · exact List.mem_cons_self
        · exact List.mem_cons_of_mem b (ih List.mem_cons_self ha)
      · exact List.mem_cons_of_mem b (ih (List.mem_cons_of_mem first hpart) ha)

/-- What a text is split into has its characters, but for the one that it is split at. -/
theorem mem_of_mem_split {c x : Char} {s part : String} (hpart : part ∈ split c s)
    (hx : x ∈ part.toList) : x ∈ s.toList ∧ x ≠ c := by
  obtain ⟨chars, hchars, rfl⟩ := List.mem_map.1 hpart
  rw [String.toList_ofList] at hx
  have hne := not_of_mem_cut hchars hx
  exact ⟨mem_of_mem_cut hchars hx, beq_eq_false_iff_ne.1 hne⟩

end Text
end SchemaPage
