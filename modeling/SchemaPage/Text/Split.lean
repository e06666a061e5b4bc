/-!
# Cutting a text at chosen characters

* `cut q l`: the parts of `l` between the elements that satisfy `q`.  There is one part more than
  there are such elements, so there is always one (`cut_ne_nil`).
* `cut_append_cons`: an element that satisfies `q` ends a part, wherever it stands.
* `cut_of_forall`, `not_of_mem_cut`: a list without such elements is one part, and so is every part.
* `intercalate_cut`: when one element alone is cut at, putting it between the parts gives back
  the whole.
* `split sep s`: the parts of a text between the occurrences of one character.
-/

namespace SchemaPage
namespace Text

variable {α : Type}

/-- The parts of a list between the elements that satisfy `q`. -/
def cut (q : α → Bool) : List α → List (List α)
  | [] => [[]]
  | a :: l =>
    if q a then [] :: cut q l
    else
      match cut q l with
      | [] => [[a]]
      | part :: parts => (a :: part) :: parts

@[simp] theorem cut_nil (q : α → Bool) : cut q [] = [[]] := rfl

theorem cut_ne_nil (q : α → Bool) (l : List α) : cut q l ≠ [] := by
  cases l with
  | nil => simp
  | cons a l =>
    unfold cut
    split
    · simp
    · split <;> simp

/-- An element that is cut at ends the part before it. -/
theorem cut_cons_of_pos {q : α → Bool} {a : α} (h : q a = true) (l : List α) :
    cut q (a :: l) = [] :: cut q l := by
  simp [cut, h]

/-- An element that is not cut at joins the part after it. -/
theorem cut_cons_of_neg {q : α → Bool} {a : α} (h : q a = false) {l : List α} {part : List α}
    {parts : List (List α)} (hl : cut q l = part :: parts) :
    cut q (a :: l) = (a :: part) :: parts := by
  simp [cut, h, hl]

/-- An element that is cut at ends a part, wherever it stands. -/
theorem cut_append_cons {q : α → Bool} {c : α} (h : q c = true) (l r : List α) :
    cut q (l ++ c :: r) = cut q l ++ cut q r := by
  induction l with
  | nil => simpa using cut_cons_of_pos h r
  | cons a l ih =>
    by_cases ha : q a
    · simp only [List.cons_append, cut_cons_of_pos ha, ih]
    · have ha : q a = false := by simpa using ha
      obtain ⟨part, parts, hl⟩ := List.exists_cons_of_ne_nil (cut_ne_nil q l)
      rw [hl, List.cons_append] at ih
      rw [List.cons_append, cut_cons_of_neg ha ih, cut_cons_of_neg ha hl, List.cons_append]

/-- A list without an element to cut at is one part. -/
theorem cut_of_forall {q : α → Bool} {l : List α} (h : ∀ a ∈ l, q a = false) : cut q l = [l] := by
  induction l with
  | nil => rfl
  | cons a l ih =>
    exact cut_cons_of_neg (h a List.mem_cons_self) (ih fun b hb => h b (List.mem_cons_of_mem a hb))

/-- No part has an element that is cut at. -/
theorem not_of_mem_cut {q : α → Bool} {a : α} {l part : List α} (hpart : part ∈ cut q l)
    (ha : a ∈ part) : q a = false := by
  induction l generalizing part with
  | nil =>
    obtain rfl := List.mem_singleton.1 hpart
    exact absurd ha List.not_mem_nil
  | cons b l ih =>
    cases hb : q b with
    | true =>
      rw [cut_cons_of_pos hb] at hpart
      rcases List.mem_cons.1 hpart with rfl | hpart
      · exact absurd ha List.not_mem_nil
      · exact ih hpart ha
    | false =>
      obtain ⟨first, parts, hl⟩ := List.exists_cons_of_ne_nil (cut_ne_nil q l)
      rw [hl] at ih
      rw [cut_cons_of_neg hb hl] at hpart
      rcases List.mem_cons.1 hpart with rfl | hpart
      · rcases List.mem_cons.1 ha with rfl | ha
        · exact hb
        · exact ih List.mem_cons_self ha
      · exact ih (List.mem_cons_of_mem first hpart) ha

/-- What stands in a joined list comes from the separator or from a part. -/
theorem mem_intercalate {a : α} {sep : List α} {parts : List (List α)}
    (h : a ∈ sep.intercalate parts) : a ∈ sep ∨ ∃ part ∈ parts, a ∈ part := by
  induction parts with
  | nil => exact absurd h List.not_mem_nil
  | cons part parts ih =>
    cases parts with
    | nil =>
      rw [List.intercalate_singleton] at h
      exact Or.inr ⟨part, List.mem_cons_self, h⟩
    | cons next parts =>
      rw [List.intercalate_cons_cons, List.mem_append, List.mem_append] at h
      rcases h with (h | h) | h
      · exact Or.inr ⟨part, List.mem_cons_self, h⟩
      · exact Or.inl h
      · exact (ih h).imp_right fun ⟨p, hp, ha⟩ => ⟨p, List.mem_cons_of_mem part hp, ha⟩

/-- Putting the separator between the parts gives back the whole. -/
theorem intercalate_cut [DecidableEq α] (sep : α) (l : List α) :
    [sep].intercalate (cut (· == sep) l) = l := by
  induction l with
  | nil => rfl
  | cons a l ih =>
    obtain ⟨part, parts, hl⟩ := List.exists_cons_of_ne_nil (cut_ne_nil (· == sep) l)
    by_cases ha : a = sep
    · rw [cut_cons_of_pos (by simpa using ha), hl, List.intercalate_cons_cons, ← hl, ih, ha]
      rfl
    · rw [cut_cons_of_neg (by simpa using ha) hl]
      rw [hl] at ih
      cases parts with
      | nil => simpa using ih
      | cons part' parts => simpa [List.intercalate_cons_cons] using ih

/-- The parts of a text between the occurrences of `sep`. -/
def split (sep : Char) (s : String) : List String := (cut (· == sep) s.toList).map String.ofList

theorem split_ne_nil (sep : Char) (s : String) : split sep s ≠ [] := by
  simp [split, cut_ne_nil]

end Text
end SchemaPage
