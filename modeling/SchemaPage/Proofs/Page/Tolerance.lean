import SchemaPage.Proofs.Page.Failure

/-!
# Pages of tolerant graphs

A graph may refuse a type name that no declaration answers to, or show it as it is written.
Everything else is the same for both: what a name means, which names are ill formed, and what the
page is about.  So the page of the tolerant graph is that of the other, except that it goes on where
the other stops over a missing name.

* `ResolveError.isMissing`: the failures that a tolerant graph does not know.
* `Outcome.SameOrMissing`: two computations, one of which may have failed over a missing name.
* `Draft.ContinuedBy`: a draft, and one that goes on where it stops over a missing name.
* `Document.generate_tolerant`: the page of a graph against that of the tolerant one.
-/

namespace SchemaPage

/-- Whether the failure is a name that no declaration answers to. -/
def ResolveError.isMissing : ResolveError → Bool
  | invalidName _ _ => false
  | notFound _ _ _ => true

/-! ## Type names -/

namespace Outcome

variable {α β : Type}

/-- The two computations do the same, unless the first fails over a missing name. -/
def SameOrMissing (x x' : Except ResolveError α) : Prop :=
  x = x' ∨ ∃ cause, x = .error cause ∧ cause.isMissing = true

namespace SameOrMissing

theorem map {x x' : Except ResolveError α} (h : SameOrMissing x x') (f : α → β) :
    SameOrMissing (x.map f) (x'.map f) := by
  rcases h with rfl | ⟨cause, rfl, hmissing⟩
  · exact Or.inl rfl
  · exact Or.inr ⟨cause, rfl, hmissing⟩

theorem bind {x x' : Except ResolveError α} {f f' : α → Except ResolveError β}
    (h : SameOrMissing x x') (hf : ∀ a, SameOrMissing (f a) (f' a)) :
    SameOrMissing (x >>= f) (x' >>= f') := by
  rcases h with rfl | ⟨cause, rfl, hmissing⟩
  · cases x with
    | error e => exact Or.inl rfl
    | ok a => exact hf a
  · exact Or.inr ⟨cause, rfl, hmissing⟩

end SameOrMissing

end Outcome

open Outcome

section Names

variable (g : Graph) (d : Declaration)

/-- A tolerant graph differs only over names that nothing answers to. -/
theorem Graph.sameOrMissing_resolve (w : String) :
    SameOrMissing ((g.withTolerance false).resolve d w) ((g.withTolerance true).resolve d w) := by
  unfold resolve
  simp only [find?_withTolerance, tolerant_withTolerance]
  cases Scalar.ofKeyword? w with
  | some s => exact Or.inl rfl
  | none =>
    cases isTypeName w with
    | false => exact Or.inl rfl
    | true =>
      cases g.find? d w with
      | some target => exact Or.inl rfl
      | none => exact Or.inr ⟨_, rfl, rfl⟩

/-- A tolerant graph refuses only names that are ill formed. -/
theorem Graph.isMissing_of_failure? {w : String} {cause : ResolveError}
    (h : (g.withTolerance true).failure? d w = some cause) : cause.isMissing = false := by
  unfold failure? resolve at h
  simp only [find?_withTolerance, tolerant_withTolerance] at h
  cases hkeyword : Scalar.ofKeyword? w with
  | some s => simp [hkeyword] at h
  | none =>
    cases hname : isTypeName w with
    | false =>
      simp only [hkeyword, hname] at h
      rw [← Option.some_inj.1 h]
      rfl
    | true => cases hfind : g.find? d w <;> simp [hkeyword, hname, hfind] at h

theorem Reference.sameOrMissing_ofType (w : String) :
    SameOrMissing (ofType (g.withTolerance false) d w) (ofType (g.withTolerance true) d w) :=
  (g.sameOrMissing_resolve d w).map _

/-- The row of a member differs only when one of its names is missing. -/
theorem Member.sameOrMissing_row (m : Member) :
    SameOrMissing (m.row (g.withTolerance false) d) (m.row (g.withTolerance true) d) := by
  have hname := Reference.sameOrMissing_ofType g d
  have hend : ∀ {α : Type} (a : α), SameOrMissing (.ok a : Except ResolveError α) (.ok a) :=
    fun _ => Or.inl rfl
  cases m with
  | method r => exact (hname r.request).bind fun _ => (hname r.response).bind fun _ => hend _
  | constant c => exact hend _
  | field f =>
    refine SameOrMissing.bind ?_ fun _ => hend _
    cases f with
    | plain f => exact (hname f.typeName).bind fun _ => hend _
    | map f => exact (hname f.keyType).bind fun _ => (hname f.valueType).bind fun _ => hend _
    | oneof name members comment => exact hend _

end Names

/-! ## Drafts -/

/-- The second draft is the first, or goes on where the first has stopped over a missing name. -/
def Draft.ContinuedBy (d e : Draft) : Prop :=
  d = e ∨ (∃ cause, d.failure = some cause ∧ cause.isMissing = true) ∧ d.pieces <+: e.pieces

/-- What comes after a draft changes nothing in it. -/
theorem Draft.prefix_pieces_append (d e : Draft) : d.pieces <+: (d ++ e).pieces := by
  cases h : d.failure with
  | some cause => exact (append_of_failure h e).symm ▸ List.prefix_rfl
  | none =>
    rw [pieces_append h]
    exact List.prefix_append _ _

namespace Draft.ContinuedBy

theorem refl (d : Draft) : d.ContinuedBy d := Or.inl rfl

/-- The second draft begins with what the first one gives. -/
theorem isPrefix {d e : Draft} (h : d.ContinuedBy e) : d.pieces <+: e.pieces := by
  rcases h with rfl | ⟨-, hpieces⟩
  · exact List.prefix_rfl
  · exact hpieces

theorem append {d d' e e' : Draft} (hd : d.ContinuedBy d') (he : e.ContinuedBy e') :
    (d ++ e).ContinuedBy (d' ++ e') := by
  rcases hd with rfl | ⟨⟨cause, hcause, hmissing⟩, hpieces⟩
  · cases hd : d.failure with
    | some cause =>
      rw [append_of_failure hd, append_of_failure hd]
      exact refl d
    | none =>
      rcases he with rfl | ⟨⟨cause, hcause, hmissing⟩, hpieces⟩
      · exact refl _
      · refine Or.inr ⟨⟨cause, ?_, hmissing⟩, ?_⟩
        · rw [failure_append, hd, hcause, Option.none_or]
        · rw [pieces_append hd, pieces_append hd]
          exact (List.prefix_append_right_inj _).2 hpieces
  · refine Or.inr ⟨⟨cause, ?_, hmissing⟩, ?_⟩
    · rw [append_of_failure hcause, hcause]
    · rw [append_of_failure hcause]
      exact hpieces.trans (prefix_pieces_append d' e')

theorem concat {α : Type} {l : List α} {f f' : α → Draft} (h : ∀ a, (f a).ContinuedBy (f' a)) :
    (Draft.concat (l.map f)).ContinuedBy (Draft.concat (l.map f')) := by
  induction l with
  | nil => exact refl _
  | cons a l ih => exact append (h a) ih

end Draft.ContinuedBy

theorem Member.continuedBy_draft (g : Graph) (d : Declaration) (m : Member) :
    (m.draft (g.withTolerance false) d).ContinuedBy (m.draft (g.withTolerance true) d) := by
  unfold draft
  rcases (m.sameOrMissing_row g d).map (Row.pieces m.depth) with h | ⟨cause, h, hmissing⟩
  · rw [h]
    exact .refl _
  · rw [h]
    exact Or.inr ⟨⟨cause, rfl, hmissing⟩, List.nil_prefix⟩

theorem Passage.continuedBy_draft (g : Graph) (p : Passage) :
    (p.draft (g.withTolerance false)).ContinuedBy (p.draft (g.withTolerance true)) := by
  cases p with
  | markup pieces => exact .refl _
  | rows d members => exact .concat (Member.continuedBy_draft g d)

/-! ## Pages -/

namespace Document

theorem continuedBy_draft (g : Graph) (options : PageOptions) :
    (draft (g.withTolerance false) options).ContinuedBy (draft (g.withTolerance true) options) := by
  rw [draft_eq_ofPassages, draft_eq_ofPassages]
  exact .concat (Passage.continuedBy_draft g)

/-- The page of a graph that refuses missing names, against that of the tolerant graph with the same
files.  A page that does not fail over a missing name is the same and ends in the same way; one that
does is the beginning of the other, as every page is.  A tolerant graph never refuses a missing
name. -/
theorem generate_tolerant (g : Graph) (options : PageOptions) :
    let strict := generate (g.withTolerance false) options Sink.unlimited
    let tolerant := generate (g.withTolerance true) options Sink.unlimited
    ((∀ w context file, strict.2 ≠ .error (.resolve (.notFound w context file))) →
      tolerant = strict) ∧
    (∃ rest, tolerant.1.taken = strict.1.taken ++ rest) ∧
    ∀ w context file, tolerant.2 ≠ .error (.resolve (.notFound w context file)) := by
  intro strict tolerant
  have hstrict : strict = _ := generate_unlimited (g.withTolerance false) options
  have htolerant : tolerant = _ := generate_unlimited (g.withTolerance true) options
  refine ⟨fun hfound => ?_, ?_, fun w context file h => ?_⟩
  · rcases continuedBy_draft g options with h | ⟨⟨cause, hcause, hmissing⟩, -⟩
    · rw [htolerant, hstrict, h]
    · have hends : strict.2 = .error (.resolve cause) := by
        rw [hstrict]
        exact Draft.ending_eq_resolve_iff.2 hcause
      cases cause with
      | invalidName w context => exact absurd hmissing Bool.false_ne_true
      | notFound w context file => exact absurd hends (hfound w context file)
  · obtain ⟨rest, hrest⟩ := (continuedBy_draft g options).isPrefix
    refine ⟨(Markup.render rest).toUTF8, ?_⟩
    rw [htolerant, hstrict, Draft.text, Draft.text, ← hrest, Markup.render_append]
    exact String.toByteArray_append
  · rw [htolerant] at h
    have hfailure := Draft.ending_eq_resolve_iff.1 h
    rw [failure_draft] at hfailure
    obtain ⟨x, -, hx⟩ := List.exists_of_findSome?_eq_some hfailure
    exact absurd (g.isMissing_of_failure? x.1 hx).symm Bool.false_ne_true

end Document

end SchemaPage
