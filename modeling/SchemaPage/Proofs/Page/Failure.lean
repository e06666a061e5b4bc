import SchemaPage.Proofs.Page.Limited
import SchemaPage.Proofs.Page.Passages
import SchemaPage.Proofs.Page.Whole

/-!
# Where a page stops

A page asks for the meaning of its type names one after the other, and it stops at the first name
that stands for nothing.  A row is written only when all of its names have been found, so what has
been written by then ends just before the row that the name stands in.

* `Document.lookups`: the type names of a page, in its order.
* `Member.failure_draft`, `Document.failure_draft`: a row, and a page, fails by the first name that
  does.
* `Stop`, `Stop.IsFirst`: a row of a page, and how a page stops there.
* `Document.generate_firstFailure`: how a page ends in a sink that takes everything.
-/

namespace SchemaPage

open Outcome

/-- Why `typeName` stands for nothing when it is written inside `context`, if it does. -/
def Graph.failure? (g : Graph) (context : Declaration) (typeName : String) : Option ResolveError :=
  error? (g.resolve context typeName)

theorem Graph.failure?_eq_none_iff {g : Graph} {d : Declaration} {w : String} :
    g.failure? d w = none ↔ g.Resolves d w := error?_eq_none_iff

/-! ## Rows and tables -/

section Rows

variable (g : Graph) (d : Declaration)

theorem Reference.error?_ofType (w : String) : error? (ofType g d w) = g.failure? d w :=
  error?_map _ _

theorem Rpc.error?_row (r : Rpc) :
    error? (r.row g d) = (g.failure? d r.request).or (g.failure? d r.response) := by
  unfold row
  rw [error?_bind (o := g.failure? d r.response) ?_, Reference.error?_ofType]
  intro request
  rw [error?_bind (o := none) fun _ => rfl, Reference.error?_ofType, Option.or_none]

theorem Field.error?_typePieces (f : Field) :
    error? (f.typePieces g d) = f.references.findSome? (g.failure? d) := by
  cases f with
  | plain f =>
    unfold typePieces references
    rw [error?_bind (o := none) fun _ => rfl, Reference.error?_ofType, Option.or_none]
    simp
  | map f =>
    unfold typePieces references
    rw [error?_bind (o := g.failure? d f.valueType) ?_, Reference.error?_ofType]
    · cases h : g.failure? d f.keyType <;> simp [h]
    · intro key
      rw [error?_bind (o := none) fun _ => rfl, Reference.error?_ofType, Option.or_none]
  | oneof name members comment => rfl

/-- A row fails by the first of its type names that stands for nothing. -/
theorem Member.failure_draft (m : Member) :
    (m.draft g d).failure = m.references.findSome? (g.failure? d) := by
  have hdraft : (m.draft g d).failure = error? (m.row g d) := by
    unfold draft
    rw [← error?_map (m.row g d) (Row.pieces m.depth)]
    cases (m.row g d).map (Row.pieces m.depth) <;> rfl
  rw [hdraft]
  cases m with
  | method r =>
    rw [row, Rpc.error?_row, references]
    cases h : g.failure? d r.request <;> simp [h]
  | constant c => rfl
  | field f =>
    rw [row, Field.row, error?_bind (o := none) fun _ => rfl, Option.or_none]
    exact Field.error?_typePieces g d f

end Rows

/-- A row that fails is not there at all. -/
theorem Member.pieces_draft {g : Graph} {d : Declaration} {m : Member} {e : ResolveError}
    (h : (m.draft g d).failure = some e) : (m.draft g d).pieces = [] := by
  unfold draft at h ⊢
  cases hrow : (m.row g d).map (Row.pieces m.depth) with
  | ok pieces =>
    rw [hrow] at h
    exact absurd h nofun
  | error e => rfl

theorem Passage.failure_draft (g : Graph) (p : Passage) :
    (p.draft g).failure = p.lookups.findSome? fun x => g.failure? x.1 x.2 := by
  cases p with
  | markup pieces => rfl
  | rows d members =>
    rw [draft, Draft.failure_concat, List.findSome?_map, lookups_rows, List.findSome?_map,
      Outcome.findSome?_flatMap]
    congr 1
    funext m
    exact Member.failure_draft g d m

/-- Passages fail by the first of their type names that stands for nothing. -/
theorem Draft.failure_ofPassages (g : Graph) (ps : List Passage) :
    (ofPassages g ps).failure =
      (ps.flatMap Passage.lookups).findSome? fun x => g.failure? x.1 x.2 := by
  rw [ofPassages, failure_concat, List.findSome?_map, Outcome.findSome?_flatMap]
  congr 1
  funext p
  exact Passage.failure_draft g p

/-- Passages come out whole when all of their type names stand for something. -/
theorem Draft.failure_ofPassages_eq_none_iff {g : Graph} {ps : List Passage} :
    (ofPassages g ps).failure = none ↔
      ∀ x ∈ ps.flatMap Passage.lookups, g.Resolves x.1 x.2 := by
  rw [failure_ofPassages, List.findSome?_eq_none_iff]
  exact forall₂_congr fun x _ => Graph.failure?_eq_none_iff

/-! ## The row that a page stops at -/

/-- A row of a page, with what stands around it. -/
structure Stop where
  /-- The passages before the rows of its table. -/
  before : List Passage
  /-- The declaration whose block it is in. -/
  context : Declaration
  /-- The members whose rows are above it. -/
  above : List Member
  /-- The member whose row it is. -/
  member : Member
  /-- The members whose rows are below it. -/
  below : List Member
  /-- The passages after the rows of its table. -/
  after : List Passage

namespace Stop

/-- The page that the row is in. -/
def page (s : Stop) : List Passage :=
  s.before ++ .rows s.context (s.above ++ s.member :: s.below) :: s.after

/-- The page up to the row. -/
def written (s : Stop) : List Passage := s.before ++ [.rows s.context s.above]

/-- All type names before the row stand for something, and the row fails by `cause`, for which its
first type name that stands for nothing is to blame. -/
structure IsFirst (g : Graph) (cause : ResolveError) (s : Stop) : Prop where
  resolves : ∀ x ∈ s.written.flatMap Passage.lookups, g.Resolves x.1 x.2
  failure : s.member.references.findSome? (g.failure? s.context) = some cause

variable {g : Graph} {cause : ResolveError}

/-- Passages that fail have a row that they stop at. -/
theorem exists_isFirst {ps : List Passage} (h : (Draft.ofPassages g ps).failure = some cause) :
    ∃ s : Stop, s.page = ps ∧ s.IsFirst g cause := by
  rw [Draft.ofPassages, Draft.failure_concat, List.findSome?_map] at h
  obtain ⟨before, p, after, rfl, hp, hbefore⟩ := List.findSome?_eq_some_iff.1 h
  cases p with
  | markup pieces => exact absurd hp nofun
  | rows d members =>
    have hrows : (members.map (Member.draft g d)).findSome? Draft.failure = some cause := by
      rw [← Draft.failure_concat]
      exact hp
    rw [List.findSome?_map] at hrows
    obtain ⟨above, m, below, rfl, hm, habove⟩ := List.findSome?_eq_some_iff.1 hrows
    refine ⟨⟨before, d, above, m, below, after⟩, rfl, ?_, ?_⟩
    · rw [← Draft.failure_ofPassages_eq_none_iff]
      simp only [written, Draft.ofPassages, List.map_append, Draft.failure_concat_eq_none_iff,
        List.forall_mem_append, List.forall_mem_map, List.map_cons, List.map_nil,
        List.forall_mem_singleton]
      refine ⟨hbefore, ?_⟩
      rw [Passage.draft, Draft.failure_concat_eq_none_iff, List.forall_mem_map]
      exact habove
    · rw [← Member.failure_draft]
      exact hm

/-- What comes out of a page that stops at a row is the page up to the row. -/
theorem IsFirst.pieces_page {s : Stop} (h : s.IsFirst g cause) :
    (Draft.ofPassages g s.page).pieces = (Draft.ofPassages g s.written).pieces := by
  have hrow : (s.member.draft g s.context).failure = some cause :=
    (Member.failure_draft g s.context s.member).trans h.failure
  have hwritten := Draft.failure_ofPassages_eq_none_iff.2 h.resolves
  -- neither the rows below nor what follows the table comes after a row that fails
  have hpage : Draft.ofPassages g s.page =
      Draft.ofPassages g s.written ++ s.member.draft g s.context := by
    simp only [page, written, Draft.ofPassages_append, Draft.ofPassages_cons, Draft.ofPassages_nil,
      Draft.append_empty, Passage.draft, List.map_append, List.map_cons, Draft.concat_append,
      Draft.concat_cons, Draft.append_assoc, Draft.append_of_failure hrow]
  rw [hpage, Draft.pieces_append hwritten, Member.pieces_draft hrow, List.append_nil]

end Stop

/-! ## Pages -/

namespace Document

/-- A page fails by the first of its type names that stands for nothing. -/
theorem failure_draft (g : Graph) (options : PageOptions) :
    (draft g options).failure = (lookups g options).findSome? fun x => g.failure? x.1 x.2 := by
  rw [draft_eq_ofPassages, Draft.failure_ofPassages, lookups_sections]

/-- How a page ends in a sink that takes everything.  What is written is what comes out of its
passages.  The page fails by the first of its type names that stands for nothing, and it is complete
when there is none.  When it fails, what has been written is the page up to the row with that name.
The type names are asked for in the order of the page, and other names play no part: the page is the
same for any graph with the same sections that agrees on them. -/
theorem generate_firstFailure (g : Graph) (options : PageOptions) :
    let page := generate g options Sink.unlimited
    page.1.taken = (Draft.ofPassages g (passages options (sections g options))).text.toUTF8 ∧
    (∀ cause, page.2 = .error (.resolve cause) ↔
      (lookups g options).findSome? (fun x => g.failure? x.1 x.2) = some cause) ∧
    (page.2 = .ok () ↔ ∀ x ∈ lookups g options, g.Resolves x.1 x.2) ∧
    (∀ cause, page.2 = .error (.resolve cause) → ∃ stop : Stop,
      stop.page = passages options (sections g options) ∧ stop.IsFirst g cause ∧
      page.1.taken = (Draft.ofPassages g stop.written).text.toUTF8) ∧
    (passages options (sections g options)).flatMap Passage.lookups = lookups g options ∧
    ∀ g' : Graph, sections g' options = sections g options →
      (∀ x ∈ lookups g options, g'.resolve x.1 x.2 = g.resolve x.1 x.2) →
      generate g' options = generate g options := by
  intro page
  have hpage : page = _ := generate_unlimited g options
  have hfails : ∀ cause, page.2 = .error (.resolve cause) ↔
      (draft g options).failure = some cause := by
    intro cause
    rw [hpage]
    exact Draft.ending_eq_resolve_iff
  refine ⟨?_, ?_, ?_, ?_, lookups_sections, ?_⟩
  · rw [hpage, draft_eq_ofPassages]
  · intro cause
    rw [hfails, failure_draft]
  · rw [hpage, Draft.ending_eq_ok_iff, and_iff_left rfl, failure_draft, List.findSome?_eq_none_iff]
    exact forall₂_congr fun x _ => Graph.failure?_eq_none_iff
  · intro cause hcause
    have hfailure := (hfails cause).1 hcause
    rw [draft_eq_ofPassages] at hfailure
    obtain ⟨stop, hstop, hfirst⟩ := Stop.exists_isFirst hfailure
    refine ⟨stop, hstop, hfirst, ?_⟩
    rw [hpage, Draft.text, Draft.text, draft_eq_ofPassages, ← hstop, hfirst.pieces_page]
  · intro g' hsections hresolve
    have hdraft : draft g' options = draft g options := by
      refine (draft_congr hsections.symm fun x hx => ?_).symm
      unfold Reference.ofType
      rw [hresolve x hx]
    funext s
    unfold generate
    rw [hdraft]

end Document

end SchemaPage
