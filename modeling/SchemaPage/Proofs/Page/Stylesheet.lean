import Mathlib.Data.List.Basic
import SchemaPage.Page.Stylesheet
import SchemaPage.Text.Split

/-!
# The characters of the stylesheet

The stylesheet is written from its selectors, properties and values and from the punctuation between
them.  So a character that is in none of these is not in the stylesheet, and to know that it is in
none the bytes of the stylesheet have to be looked at only once.

* `Text.not_mem_toList`: a character of one byte is in a text only if its byte is.
* `Stylesheet.forall_mem_render`: what holds of the characters of all parts holds of the whole.
* `Stylesheet.no_bracket_render`: the stylesheet has no angle bracket.
-/

namespace SchemaPage

/-- A character of one byte is not in a text without that byte. -/
theorem Text.not_mem_toList {c : Char} {b : UInt8} (hc : String.utf8EncodeChar c = [b]) {s : String}
    (h : b ∉ s.toByteArray.data.toList) : c ∉ s.toList := by
  rw [← String.utf8Encode_toList, List.utf8Encode, List.toList_data_toByteArray] at h
  intro hmem
  exact h (List.mem_flatMap.2 ⟨c, hmem, hc ▸ List.mem_singleton_self b⟩)

/-- The texts that a rule is written from. -/
def StyleRule.texts (rule : StyleRule) : List String :=
  rule.selectors ++ rule.settings.flatMap fun s => [s.1, s.2]

/-- The texts that a part of a stylesheet is written from. -/
def StyleEntry.texts : StyleEntry → List String
  | rule r => r.texts
  | blank => []
  | media condition rules => condition :: rules.flatMap StyleRule.texts

/-- The characters between these texts. -/
def Stylesheet.punctuation : List Char :=
  ['@', 'm', 'e', 'd', 'i', 'a', ' ', '\n', ',', ':', ';', '\x7b', '\x7d']

section Parts

variable {p : Char → Prop} {indentation : String} (hp : ∀ c ∈ Stylesheet.punctuation, p c)

include hp

theorem StyleRule.forall_mem_render (hindent : ∀ c ∈ indentation.toList, p c) {rule : StyleRule}
    (h : ∀ s ∈ rule.texts, ∀ c ∈ s.toList, p c) : ∀ c ∈ (rule.render indentation).toList, p c := by
  have hfixed : ∀ {s : String}, s.toList.all (· ∈ Stylesheet.punctuation) = true →
      ∀ c ∈ s.toList, p c :=
    fun hs c hc => hp c (of_decide_eq_true (List.all_eq_true.1 hs c hc))
  have hselector : ∀ s ∈ rule.selectors, ∀ c ∈ s.toList, p c :=
    fun s hs => h s (List.mem_append_left _ hs)
  have hsetting : ∀ s ∈ rule.settings, (∀ c ∈ s.1.toList, p c) ∧ ∀ c ∈ s.2.toList, p c := by
    intro s hs
    have hmem : ∀ t ∈ [s.1, s.2], t ∈ rule.texts := fun t ht =>
      List.mem_append_right _ (List.mem_flatMap.2 ⟨s, hs, ht⟩)
    exact ⟨h _ (hmem _ (by simp)), h _ (hmem _ (by simp))⟩
  unfold render
  simp only [String.toList_append, List.forall_mem_append]
  refine ⟨⟨⟨⟨?_, hfixed (by decide)⟩, ?_⟩, hindent⟩, hfixed (by decide)⟩
  · intro c hc
    rw [String.toList_intercalate] at hc
    rcases Text.mem_intercalate hc with hc | ⟨part, hpart, hc⟩
    · exact hfixed (s := ",\n") (by decide) c hc
    · obtain ⟨s, hs, rfl⟩ := List.mem_map.1 hpart
      obtain ⟨selector, hselect, rfl⟩ := List.mem_map.1 hs
      rw [String.toList_append, List.mem_append] at hc
      exact hc.elim (hindent c) (hselector selector hselect c)
  · rw [String.toList_join, List.forall_mem_flatMap, List.forall_mem_map]
    intro s hs
    simp only [String.toList_append, List.forall_mem_append]
    exact ⟨⟨⟨⟨⟨hindent, hfixed (by decide)⟩, (hsetting s hs).1⟩, hfixed (by decide)⟩,
      (hsetting s hs).2⟩, hfixed (by decide)⟩

theorem StyleEntry.forall_mem_render (hindent : ∀ c ∈ indentation.toList, p c) {entry : StyleEntry}
    (h : ∀ s ∈ entry.texts, ∀ c ∈ s.toList, p c) :
    ∀ c ∈ (entry.render indentation).toList, p c := by
  have hfixed : ∀ {s : String}, s.toList.all (· ∈ Stylesheet.punctuation) = true →
      ∀ c ∈ s.toList, p c :=
    fun hs c hc => hp c (of_decide_eq_true (List.all_eq_true.1 hs c hc))
  cases entry with
  | rule r => exact StyleRule.forall_mem_render hp hindent h
  | blank => exact hfixed (s := "\n") (by decide)
  | media condition rules =>
    obtain ⟨hcondition, hrules⟩ := List.forall_mem_cons.1 h
    have hdeeper : ∀ c ∈ (indentation ++ "    ").toList, p c := by
      rw [String.toList_append, List.forall_mem_append]
      exact ⟨hindent, hfixed (by decide)⟩
    unfold render
    simp only [String.toList_append, List.forall_mem_append]
    refine ⟨⟨⟨⟨⟨⟨hindent, hfixed (by decide)⟩, hcondition⟩, hfixed (by decide)⟩, ?_⟩, hindent⟩,
      hfixed (by decide)⟩
    intro c hc
    rw [String.toList_intercalate] at hc
    rcases Text.mem_intercalate hc with hc | ⟨part, hpart, hc⟩
    · exact hfixed (s := "\n") (by decide) c hc
    · obtain ⟨s, hs, rfl⟩ := List.mem_map.1 hpart
      obtain ⟨rule, hrule, rfl⟩ := List.mem_map.1 hs
      refine StyleRule.forall_mem_render hp hdeeper (fun s hs => ?_) c hc
      exact hrules s (List.mem_flatMap.2 ⟨rule, hrule, hs⟩)

/-- What holds of the characters of all parts of a stylesheet holds of the characters of the
whole. -/
theorem Stylesheet.forall_mem_render (hindent : ∀ c ∈ indentation.toList, p c)
    {entries : List StyleEntry} (h : ∀ s ∈ entries.flatMap StyleEntry.texts, ∀ c ∈ s.toList, p c) :
    ∀ c ∈ (render indentation entries).toList, p c := by
  rw [render, String.toList_join, List.forall_mem_flatMap, List.forall_mem_map]
  intro entry hentry
  exact StyleEntry.forall_mem_render hp hindent fun s hs =>
    h s (List.mem_flatMap.2 ⟨entry, hentry, hs⟩)

end Parts

/-- The stylesheet of the page has no angle bracket. -/
theorem Stylesheet.no_bracket_render :
    ∀ c ∈ (render "        " page).toList, c ≠ '<' ∧ c ≠ '>' := by
  have hbytes : ∀ s ∈ page.flatMap StyleEntry.texts,
      60 ∉ s.toByteArray.data.toList ∧ 62 ∉ s.toByteArray.data.toList := by decide +kernel
  have hpunctuation : (punctuation.all fun c => c ≠ '<' ∧ c ≠ '>') = true := by decide
  have hindent : ("        ".toList.all fun c => c ≠ '<' ∧ c ≠ '>') = true := by decide
  refine forall_mem_render (fun c hc => of_decide_eq_true (List.all_eq_true.1 hpunctuation c hc))
    (fun c hc => of_decide_eq_true (List.all_eq_true.1 hindent c hc)) fun s hs c hc => ⟨?_, ?_⟩
  · rintro rfl
    exact Text.not_mem_toList rfl (hbytes s hs).1 hc
  · rintro rfl
    exact Text.not_mem_toList rfl (hbytes s hs).2 hc

end SchemaPage
