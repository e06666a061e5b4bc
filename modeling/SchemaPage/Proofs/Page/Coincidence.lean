import SchemaPage.Proofs.Page.Names
import SchemaPage.Proofs.Proto.Types

/-!
# When anchors coincide

An anchor is made of slugs, and slugs fold much together: a package and a name end up in one list of
words, a package is told from a declaration by nothing, and capitals are gone.  For names of the
schema language this is all that is lost.  A hyphen in an anchor is always a dot of a name, and the
label at the second place is never that of another family; so what an anchor stands for is told back
up to the case of its letters.

* `Text.lower_of_lt`: in the basic alphabet the lower case is that of single letters.
* `Proto.IsName.lowercase_eq_iff`: names are equal in lower case when they are equal, case aside.
* `Anchor.coincide_iff`: when two anchors are equal.
* `Anchor.coincide_acrossPackages`: a name in two packages at once.
-/

namespace SchemaPage

/-! ## Lower case -/

namespace Text

/-- Only the first run of capitals begins in the basic alphabet. -/
theorem find?_caseRuns_of_lt {code : Nat} (h : code < 128) :
    caseRuns.find? (·.has code) = (caseRuns.take 1).find? (·.has code) := by
  have hlater : ∀ run ∈ caseRuns.drop 1, 128 ≤ run.first := by decide +kernel
  have hnone : (caseRuns.drop 1).find? (·.has code) = none := by
    refine List.find?_eq_none.2 fun run hrun hhas => ?_
    have hfirst := hlater run hrun
    unfold CaseRun.has at hhas
    simp only [Bool.and_eq_true, decide_eq_true_eq] at hhas
    omega
  conv_lhs => rw [← List.take_append_drop 1 caseRuns]
  rw [List.find?_append, hnone, Option.or_none]

/-- In the basic alphabet the lower case is that of single letters. -/
theorem lower_of_lt {c : Char} (h : c.toNat < 128) : lower c = [c.toLower] := by
  have hlower : lower c = if c = 'İ' then ['i', '\u0307'] else
      ((caseRuns.find? (·.has c.toNat)).map fun run =>
        [Char.ofNat (c.toNat - run.first + run.lowerFirst)]).getD [c] := by
    unfold lower
    cases caseRuns.find? (·.has c.toNat) <;> rfl
  have hall : ∀ n < 128, (if Char.ofNat n = 'İ' then ['i', '\u0307'] else
      (((caseRuns.take 1).find? (·.has (Char.ofNat n).toNat)).map fun run =>
        [Char.ofNat ((Char.ofNat n).toNat - run.first + run.lowerFirst)]).getD [Char.ofNat n]) =
      [(Char.ofNat n).toLower] := by decide +kernel
  have hc := hall c.toNat h
  rw [Char.ofNat_toNat] at hc
  rw [hlower, find?_caseRuns_of_lt h]
  exact hc

end Text

namespace Proto

variable {s t : String}

theorem IsName.toNat_lt (h : IsName s) {c : Char} (hc : c ∈ s.toList) : c.toNat < 128 := by
  rcases h with rfl | h
  · exact absurd hc List.not_mem_nil
  · rcases isWordChar_or_eq_dot h hc with hword | rfl
    · exact Nat.lt_trans (toNat_lt_of_isWordChar hword) (by decide)
    · decide

theorem IsName.lowercase_eq (h : IsName s) : Text.lowercase s = s.toLower := by
  have hmap : s.toList.flatMap Text.lower = s.toList.map Char.toLower := by
    rw [← List.flatMap_singleton' (s.toList.map Char.toLower), List.flatMap_map]
    exact List.flatMap_congr fun c hc => Text.lower_of_lt (h.toNat_lt hc)
  rw [← String.toList_inj, Text.toList_lowercase, hmap]
  exact String.toList_map.symm

/-- Names are equal in lower case when they are equal, case aside. -/
theorem IsName.lowercase_eq_iff (hs : IsName s) (ht : IsName t) :
    Text.lowercase s = Text.lowercase t ↔ s.toLower = t.toLower := by
  rw [hs.lowercase_eq, ht.lowercase_eq]

/-- A dotted name in a package is dotted. -/
theorem IsName.isDotted_nameIn {package name : String} (hpackage : IsName package)
    (hname : isDotted name = true) : isDotted (nameIn package name) = true := by
  rcases hpackage with rfl | hpackage
  · rwa [nameIn_empty]
  · rw [nameIn_of_ne (ne_empty_of_isDotted hpackage)]
    exact isDotted_append hpackage hname

end Proto

/-! ## Anchors -/

namespace Anchor

open Proto

/-- Which anchors are equal, for names that are made of words with dots between them, and packages
that may also be empty.  Declarations share an anchor when they are of one kind and have one full
name, case aside; groups of fields, when their messages have one name and they do, case aside; and a
package shares the anchor of a declaration in its section when its name is the full name of that,
case aside.  The anchor of a group of fields is no other anchor, and that of a package is not that
of a section. -/
theorem coincide_iff {k₁ k₂ : Kind} {a₁ a₂ n₁ n₂ m₁ m₂ o₁ o₂ : String} (ha₁ : IsName a₁)
    (ha₂ : IsName a₂) (hn₁ : isDotted n₁ = true) (hn₂ : isDotted n₂ = true)
    (hm₁ : isDotted m₁ = true)
    (hm₂ : isDotted m₂ = true) (ho₁ : isWord o₁ = true) (ho₂ : isWord o₂ = true) :
    (declaration k₁ a₁ n₁ = declaration k₂ a₂ n₂ ↔
      k₁ = k₂ ∧ (nameIn a₁ n₁).toLower = (nameIn a₂ n₂).toLower) ∧
    (oneof m₁ o₁ = oneof m₂ o₂ ↔ m₁.toLower = m₂.toLower ∧ o₁.toLower = o₂.toLower) ∧
    (group k₁ a₁ = declaration k₂ a₂ n₂ ↔ k₁ = k₂ ∧ a₁.toLower = (nameIn a₂ n₂).toLower) ∧
    (oneof m₁ o₁ ≠ ofKind k₂ ∧ oneof m₁ o₁ ≠ group k₂ a₂ ∧ oneof m₁ o₁ ≠ declaration k₂ a₂ n₂) ∧
    group k₁ a₁ ≠ ofKind k₂ := by
  have hfull₁ := ha₁.isDotted_nameIn hn₁
  have hfull₂ := ha₂.isDotted_nameIn hn₂
  have honeof := isDotted_append hm₁ (isDotted_of_isWord ho₁)
  have hword₁ : IsName o₁ := Or.inr (isDotted_of_isWord ho₁)
  have hword₂ : IsName o₂ := Or.inr (isDotted_of_isWord ho₂)
  refine ⟨?_, ?_, ?_, ⟨?_, ?_, ?_⟩, ?_⟩
  · rw [declaration_eq_named_nameIn k₁ hfull₁, declaration_eq_named_nameIn k₂ hfull₂,
      named_label_eq_iff (Or.inr hfull₁) (Or.inr hfull₂),
      IsName.lowercase_eq_iff (Or.inr hfull₁) (Or.inr hfull₂)]
  · rw [oneof_eq_iff hm₁ hm₂ ho₁ ho₂, IsName.lowercase_eq_iff (Or.inr hm₁) (Or.inr hm₂),
      hword₁.lowercase_eq_iff hword₂]
  · rw [group_eq_named k₁ ha₁, declaration_eq_named_nameIn k₂ hfull₂,
      named_label_eq_iff ha₁ (Or.inr hfull₂), ha₁.lowercase_eq_iff (Or.inr hfull₂)]
  · rw [oneof_eq_named hm₁ ho₁]
    exact (ofKind_ne_named k₂ (by decide) (Or.inr honeof)).symm
  · rw [oneof_eq_named hm₁ ho₁, group_eq_named k₂ ha₂]
    exact named_oneof_ne_named_label k₂ (Or.inr honeof) ha₂
  · rw [oneof_eq_named hm₁ ho₁, declaration_eq_named_nameIn k₂ hfull₂]
    exact named_oneof_ne_named_label k₂ (Or.inr honeof) (Or.inr hfull₂)
  · rw [group_eq_named k₁ ha₁]
    exact (ofKind_ne_named k₂ (not_mem_label k₁) ha₁).symm

/-- A message without a package has the anchor of one in a package, and so have the groups of fields
in them; the package has another. -/
theorem coincide_acrossPackages :
    (IsName "" ∧ IsName "b_1" ∧ isDotted "B_1.c" = true ∧ isDotted "C" = true ∧
      isDotted "b_1.C" = true ∧ isWord "x" = true ∧ isWord "X" = true) ∧
    declaration .message "" "B_1.c" = declaration .message "b_1" "C" ∧
    oneof "B_1.c" "x" = oneof "b_1.C" "X" ∧ group .message "" ≠ declaration .message "b_1" "C" := by
  have hnone : IsName "" := Or.inl rfl
  have hpackage : IsName "b_1" := Or.inr (by decide +kernel)
  have hinner : isDotted "B_1.c" = true := by decide +kernel
  have hname : isDotted "C" = true := by decide +kernel
  have hfull : isDotted "b_1.C" = true := by decide +kernel
  have hsmall : isWord "x" = true := by decide +kernel
  have hcapital : isWord "X" = true := by decide +kernel
  have h := @coincide_iff .message .message "" "b_1" "B_1.c" "C" "B_1.c" "b_1.C" "x" "X" hnone
    hpackage
    hinner hname hinner hfull hsmall hcapital
  have hfull₁ : IsName (nameIn "" "B_1.c") := Or.inr (hnone.isDotted_nameIn hinner)
  have hfull₂ : IsName (nameIn "b_1" "C") := Or.inr (hpackage.isDotted_nameIn hname)
  refine ⟨⟨hnone, hpackage, hinner, hname, hfull, hsmall, hcapital⟩, h.1.2 ⟨rfl, ?_⟩,
    h.2.1.2 ⟨?_, ?_⟩, fun heq => ?_⟩
  · exact (hfull₁.lowercase_eq_iff hfull₂).1 (by decide +kernel)
  · exact (IsName.lowercase_eq_iff (Or.inr hinner) (Or.inr hfull)).1 (by decide +kernel)
  · exact (IsName.lowercase_eq_iff (Or.inr (isDotted_of_isWord hsmall))
      (Or.inr (isDotted_of_isWord hcapital))).1 (by decide +kernel)
  · have hlower := (hnone.lowercase_eq_iff hfull₂).2 (h.2.2.1.1 heq).2
    exact absurd hlower (by decide +kernel)

end Anchor
end SchemaPage
