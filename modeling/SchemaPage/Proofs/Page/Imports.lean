import SchemaPage.Proofs.Page.Alike
import SchemaPage.Proofs.Page.Passages

/-!
# What imported files do to a page

A page is about the owned files.  The imported ones stand in the same list and in the same index,
but the selection, the groups and the order of a page come from declarations of owned files alone.
An imported file can only change what a type name means, and so the inside of a cell that shows a
type.

* `Markup.withoutTypes`: some markup without what stands in the cells of types.
* `Markup.SameAround`: stretches that differ only inside such cells.
* `Document.sections_of_owned`: graphs with the same owned files have the same sections.
* `Document.withoutTypes_generate`: two pages of graphs with the same owned files.
-/

namespace SchemaPage

/-! ## Erasing the cells of types -/

/-- The classes of the cells that show a type. -/
def typeClasses : List String := ["fld-msg-type", "fld-svc-req", "fld-svc-ret"]

/-- Whether the piece begins a cell that shows a type. -/
def Piece.opensType : Piece → Bool
  | opening .td attributes => typeClasses.any fun cls => attributes == [⟨"class", cls⟩]
  | _ => false

namespace Markup

/-- What is left of some markup without what stands in the cells of types.  The reading starts
inside such a cell when `inside` holds, and there nothing is kept before the end of the cell. -/
def eraseTypes (inside : Bool) : List Piece → List Piece
  | [] => []
  | p :: ps =>
    if inside && p != .closing .td then eraseTypes true ps
    else p :: eraseTypes p.opensType ps

/-- Some markup without what stands in the cells of types. -/
def withoutTypes (pieces : List Piece) : List Piece := eraseTypes false pieces

/-- The two stretches are the same but for what stands in the cells of types, wherever the reading
starts and whatever follows them. -/
def SameAround (l r : List Piece) : Prop :=
  ∀ inside rest rest', (∀ inside, eraseTypes inside rest = eraseTypes inside rest') →
    eraseTypes inside (l ++ rest) = eraseTypes inside (r ++ rest')

namespace SameAround

theorem refl (l : List Piece) : SameAround l l := by
  intro inside rest rest' hrest
  induction l generalizing inside with
  | nil => exact hrest inside
  | cons p l ih =>
    rw [List.cons_append, List.cons_append, eraseTypes, eraseTypes, ih, ih]

theorem append {l l' r r' : List Piece} (hl : SameAround l l') (hr : SameAround r r') :
    SameAround (l ++ r) (l' ++ r') := by
  intro inside rest rest' hrest
  rw [List.append_assoc, List.append_assoc]
  exact hl inside _ _ fun inside => hr inside rest rest' hrest

theorem flatMap {α : Type} {l : List α} {f f' : α → List Piece}
    (h : ∀ a ∈ l, SameAround (f a) (f' a)) : SameAround (l.flatMap f) (l.flatMap f') := by
  induction l with
  | nil => exact refl []
  | cons a l ih =>
    rw [List.flatMap_cons, List.flatMap_cons]
    exact append (h a List.mem_cons_self) (ih fun b hb => h b (List.mem_cons_of_mem a hb))

theorem withoutTypes_eq {l r : List Piece} (h : SameAround l r) :
    withoutTypes l = withoutTypes r := by
  have hnil := h false [] [] fun _ => rfl
  rwa [List.append_nil, List.append_nil] at hnil

end SameAround

/-- What does not end a cell is erased inside one. -/
theorem eraseTypes_append {content : List Piece} (h : .closing .td ∉ content) (rest : List Piece) :
    eraseTypes true (content ++ rest) = eraseTypes true rest := by
  induction content with
  | nil => rfl
  | cons p content ih =>
    have hp : p ≠ .closing .td := fun hp => h (hp ▸ List.mem_cons_self)
    have hcontent : .closing .td ∉ content := fun hmem => h (List.mem_cons_of_mem p hmem)
    rw [List.cons_append, eraseTypes, ih hcontent]
    simp [hp]

/-- A cell of a type is the same with another content. -/
theorem sameAround_typeCell {cls : String} (hcls : cls ∈ typeClasses)
    {content content' : List Piece} (h : .closing .td ∉ content) (h' : .closing .td ∉ content') :
    SameAround (classed .td cls content) (classed .td cls content') := by
  intro inside rest rest' hrest
  have hopens : (Piece.opening .td [⟨"class", cls⟩]).opensType = true := by
    unfold Piece.opensType
    rw [List.any_eq_true]
    exact ⟨cls, hcls, beq_self_eq_true _⟩
  have hcell : ∀ {content : List Piece}, .closing .td ∉ content → ∀ rest,
      eraseTypes true (content ++ [.closing .td] ++ rest) =
        .closing .td :: eraseTypes false rest := by
    intro content hcontent rest
    rw [List.append_assoc, eraseTypes_append hcontent]
    rfl
  have hrest := hrest false
  simp only [classed, List.cons_append, eraseTypes, hopens, hcell h, hcell h', hrest]

end Markup

open Markup

/-! ## Rows -/

/-- The cells are the same, or both show a type. -/
def Cell.SameAround (c c' : Cell) : Prop :=
  c = c' ∨
    c.cls = c'.cls ∧ c.cls ∈ typeClasses ∧ .closing .td ∉ c.content ∧ .closing .td ∉ c'.content

theorem Cell.SameAround.ofType {cls : String} (hcls : cls ∈ typeClasses)
    {content content' : List Piece} (h : .closing .td ∉ content) (h' : .closing .td ∉ content') :
    Cell.SameAround ⟨cls, content⟩ ⟨cls, content'⟩ := Or.inr ⟨rfl, hcls, h, h'⟩

theorem Cell.SameAround.pieces {c c' : Cell} (h : c.SameAround c') :
    Markup.SameAround (classed .td c.cls c.content) (classed .td c'.cls c'.content) := by
  rcases h with rfl | ⟨hcls, hmem, hc, hc'⟩
  · exact .refl _
  · rw [← hcls]
    exact sameAround_typeCell hmem hc hc'

/-- Rows with such cells are the same around the cells of types. -/
theorem Row.sameAround_pieces {row row' : Row} (h : List.Forall₂ Cell.SameAround row row')
    (depth : Nat) : SameAround (row.pieces depth) (row'.pieces depth) := by
  refine .append (.append (.refl _) ?_) (.refl _)
  induction h with
  | nil => exact .refl _
  | cons hc _ ih => exact .append (.append (.refl [line _]) hc.pieces) ih

/-- Nothing in a reference ends the cell that it stands in. -/
theorem Reference.closing_notMem_pieces (r : Reference) : .closing .td ∉ r.pieces := by
  unfold pieces
  split <;> simp [Markup.link]

theorem Field.closing_notMem_typePieces {g : Graph} {d : Declaration} {f : Field}
    {pieces : List Piece} (h : f.typePieces g d = .ok pieces) : .closing .td ∉ pieces := by
  cases f with
  | plain f =>
    obtain ⟨r, -, h⟩ := Outcome.bind_eq_ok_iff.1 h
    obtain rfl := Except.ok.inj h
    exact Reference.closing_notMem_pieces _
  | map f =>
    obtain ⟨key, -, h⟩ := Outcome.bind_eq_ok_iff.1 h
    obtain ⟨value, -, h⟩ := Outcome.bind_eq_ok_iff.1 h
    obtain rfl := Except.ok.inj h
    simp [Reference.closing_notMem_pieces]
  | oneof name members comment =>
    obtain rfl := Except.ok.inj h
    exact Reference.closing_notMem_pieces _

section Rows

variable {g g' : Graph} {d : Declaration}

/-- The rows of a member in two graphs differ only in what its types are shown as. -/
theorem Member.sameAround_row {m : Member} {row row' : Row} (h : m.row g d = .ok row)
    (h' : m.row g' d = .ok row') : List.Forall₂ Cell.SameAround row row' := by
  have hsame : ∀ c : Cell, c.SameAround c := fun _ => Or.inl rfl
  cases m with
  | method r =>
    obtain ⟨request, -, h⟩ := Outcome.bind_eq_ok_iff.1 h
    obtain ⟨response, -, h⟩ := Outcome.bind_eq_ok_iff.1 h
    obtain ⟨request', -, h'⟩ := Outcome.bind_eq_ok_iff.1 h'
    obtain ⟨response', -, h'⟩ := Outcome.bind_eq_ok_iff.1 h'
    obtain rfl := Except.ok.inj h
    obtain rfl := Except.ok.inj h'
    refine .cons (hsame _) (.cons ?request (.cons ?response (.cons (hsame _) .nil)))
    case request =>
      exact .ofType (by decide) request.closing_notMem_pieces request'.closing_notMem_pieces
    case response =>
      exact .ofType (by decide) response.closing_notMem_pieces response'.closing_notMem_pieces
  | constant c =>
    obtain rfl := Except.ok.inj h
    obtain rfl := Except.ok.inj h'
    exact List.forall₂_same.2 fun c _ => hsame c
  | field f =>
    obtain ⟨type, htype, h⟩ := Outcome.bind_eq_ok_iff.1 h
    obtain ⟨type', htype', h'⟩ := Outcome.bind_eq_ok_iff.1 h'
    obtain rfl := Except.ok.inj h
    obtain rfl := Except.ok.inj h'
    refine .cons (hsame _) (.cons ?type (.cons (hsame _) (.cons (hsame _) .nil)))
    exact .ofType (by decide) (Field.closing_notMem_typePieces htype)
      (Field.closing_notMem_typePieces htype')

theorem Member.sameAround_draft {m : Member} (h : (m.draft g d).failure = none)
    (h' : (m.draft g' d).failure = none) :
    SameAround (m.draft g d).pieces (m.draft g' d).pieces := by
  obtain ⟨pieces, hpieces⟩ := Draft.failure_ofExcept_eq_none_iff.1 h
  obtain ⟨pieces', hpieces'⟩ := Draft.failure_ofExcept_eq_none_iff.1 h'
  rw [draft, draft, hpieces, hpieces']
  obtain ⟨row, hrow, rfl⟩ := Outcome.map_eq_ok_iff.1 hpieces
  obtain ⟨row', hrow', rfl⟩ := Outcome.map_eq_ok_iff.1 hpieces'
  exact Row.sameAround_pieces (sameAround_row hrow hrow') m.depth

end Rows

/-! ## Drafts -/

/-- Drafts that are made of parts that are the same around the cells of types are so too. -/
theorem Draft.sameAround_concat {α : Type} {l : List α} {f f' : α → Draft}
    (hf : ∀ a, (f a).failure = none → (f' a).failure = none → SameAround (f a).pieces (f' a).pieces)
    (h : (concat (l.map f)).failure = none) (h' : (concat (l.map f')).failure = none) :
    SameAround (concat (l.map f)).pieces (concat (l.map f')).pieces := by
  have hall := failure_concat_eq_none_iff.1 h
  have hall' := failure_concat_eq_none_iff.1 h'
  rw [pieces_concat hall, pieces_concat hall', List.flatMap_map, List.flatMap_map]
  rw [List.forall_mem_map] at hall hall'
  exact .flatMap fun a ha => hf a (hall a ha) (hall' a ha)

theorem Passage.sameAround_draft {g g' : Graph} {p : Passage} (h : (p.draft g).failure = none)
    (h' : (p.draft g').failure = none) : SameAround (p.draft g).pieces (p.draft g').pieces := by
  cases p with
  | markup pieces => exact .refl _
  | rows d members => exact Draft.sameAround_concat (fun _ => Member.sameAround_draft) h h'

/-! ## Graphs with the same owned files -/

namespace Document

variable {g g' : Graph} {options : PageOptions}

/-- Only the owned files settle what a page is about, and in which order. -/
theorem sections_of_owned
    (h : g.files.filter SchemaFile.isOwned = g'.files.filter SchemaFile.isOwned) :
    sections g options = sections g' options := by
  have hselected : ∀ files : List SchemaFile, files.filter (selection options).includes =
      (files.filter SchemaFile.isOwned).filter fun file =>
        options.paths.isEmpty || options.paths.contains file.path := by
    intro files
    rw [List.filter_filter]
    refine List.filter_congr fun file _ => ?_
    exact Bool.and_comm _ _
  have hlist : ∀ kind, g.list kind (selection options) = g'.list kind (selection options) := by
    intro kind
    have hcandidates : g.candidates kind (selection options) =
        g'.candidates kind (selection options) := by
      unfold Graph.candidates
      rw [hselected, hselected, h]
    unfold Graph.list
    rw [hcandidates]
  unfold sections
  exact List.map_congr_left fun kind _ => by rw [hlist kind]

/-- Graphs with the same owned files have pages that are the same around the cells of types. -/
theorem sameAround_draft
    (howned : g.files.filter SchemaFile.isOwned = g'.files.filter SchemaFile.isOwned)
    (h : (draft g options).failure = none) (h' : (draft g' options).failure = none) :
    SameAround (draft g options).pieces (draft g' options).pieces := by
  rw [draft_eq_ofPassages] at h ⊢
  rw [draft_eq_ofPassages, ← sections_of_owned howned] at h' ⊢
  exact Draft.sameAround_concat (fun _ => Passage.sameAround_draft) h h'

end Document

/-- Graphs of files in which the same are owned have one list of owned files. -/
theorem Graph.filter_isOwned_ofFiles {files files' : List SchemaFile}
    (h : ∀ file : SchemaFile, file.isOwned →
      (file ∈ (ofFiles files).files ↔ file ∈ (ofFiles files').files)) :
    (ofFiles files).files.filter SchemaFile.isOwned =
      (ofFiles files').files.filter SchemaFile.isOwned := by
  have hascending : ∀ files : List SchemaFile,
      Order.Ascending SchemaFile.path ((ofFiles files).files.filter SchemaFile.isOwned) :=
    fun files => (Order.ascending_latest SchemaFile.path files).sublist List.filter_sublist
  refine (hascending files).eq_of_mem_iff (hascending files') fun file => ?_
  rw [List.mem_filter, List.mem_filter]
  exact and_congr_left (h file)

/-! ## Type names with one meaning -/

/-- The meanings of two type names are the same as far as a page shows them. -/
inductive ResolvedType.Matches : Option ResolvedType → Option ResolvedType → Prop
  | unresolved : Matches none none
  | scalar (s : Scalar) : Matches (some (.scalar s)) (some (.scalar s))
  | declared {d d' : Declaration} (h : d.Matches d') :
      Matches (some (.declared d)) (some (.declared d'))

/-- Type names with one meaning are shown in one way. -/
theorem Reference.ofResolved_eq {r r' : Option ResolvedType} (h : ResolvedType.Matches r r')
    (d : Declaration) (w : String) : ofResolved d w r = ofResolved d w r' := by
  cases h with
  | unresolved => rfl
  | scalar s => rfl
  | declared h => exact ofDeclaration_eq ⟨rfl, rfl, rfl, rfl, rfl⟩ h

/-! ## Pages -/

namespace Document

variable {files files' : List SchemaFile} {tolerant tolerant' : Bool} {options : PageOptions}

/-- Two pages that are written to their ends, of graphs in which the same files are owned.  They are
the same but for what stands in the cells of types, and they are the same in full when each of their
type names has one meaning in both graphs. -/
theorem withoutTypes_generate {s s' t t' : Sink}
    (howned : ∀ file : SchemaFile, file.isOwned →
      (file ∈ (Graph.ofFiles files).files ↔ file ∈ (Graph.ofFiles files').files))
    (h : generate ((Graph.ofFiles files).withTolerance tolerant) options s = (s', .ok ()))
    (h' : generate ((Graph.ofFiles files').withTolerance tolerant') options t = (t', .ok ())) :
    let g := (Graph.ofFiles files).withTolerance tolerant
    let g' := (Graph.ofFiles files').withTolerance tolerant'
    let page := (draft g options).pieces
    let page' := (draft g' options).pieces
    s'.taken = s.taken ++ (render page).toUTF8 ∧
    t'.taken = t.taken ++ (render page').toUTF8 ∧
    withoutTypes page = withoutTypes page' ∧
    ((∀ x ∈ lookups g options, ∃ r r', g.resolve x.1 x.2 = .ok r ∧ g'.resolve x.1 x.2 = .ok r' ∧
      ResolvedType.Matches r r') → page = page') := by
  intro g g' page page'
  obtain ⟨hnone, htaken⟩ := generate_eq_ok h
  obtain ⟨hnone', htaken'⟩ := generate_eq_ok h'
  have hfiles : g.files.filter SchemaFile.isOwned = g'.files.filter SchemaFile.isOwned :=
    Graph.filter_isOwned_ofFiles howned
  refine ⟨htaken, htaken', (sameAround_draft hfiles hnone hnone').withoutTypes_eq,
    fun hmatches => ?_⟩
  refine congrArg Draft.pieces (draft_congr (sections_of_owned hfiles) fun x hx => ?_)
  obtain ⟨r, r', hr, hr', hrr'⟩ := hmatches x hx
  unfold Reference.ofType
  rw [hr, hr']
  exact congrArg Except.ok (Reference.ofResolved_eq hrr' x.1 x.2)

/-- An owned file whose members refer to `X`, with a file that is only imported. -/
def besideImport (imported : SchemaFile) : List SchemaFile :=
  let plain : PlainField := ⟨"f", "X", 1, false, true, false, none⟩
  let map : MapField := ⟨"m", "string", "X", 2, none⟩
  [imported, ⟨"b.proto", "p", .owned, [⟨"S", [⟨"call", "X", "M", none⟩], none⟩], [],
    [⟨"M", [.oneof "o" [.plain plain] none, .map map], none⟩]⟩]

/-- A file that declares `X` where the owned file finds it. -/
def declaringFile : SchemaFile := ⟨"a.proto", "p", .imported, [], [], [⟨"X", [], none⟩]⟩

/-- A file that declares another message. -/
def otherFile : SchemaFile := ⟨"c.proto", "q", .imported, [], [], [⟨"Y", [], none⟩]⟩

/-- The same page, with `X` found in an imported file and with `X` left as it is written. -/
theorem withoutTypes_besideImport :
    let g := (Graph.ofFiles (besideImport declaringFile)).withTolerance false
    let g' := (Graph.ofFiles (besideImport otherFile)).withTolerance true
    (generate g {} Sink.unlimited).2 = .ok () ∧ (generate g' {} Sink.unlimited).2 = .ok () ∧
      (∀ file : SchemaFile, file.isOwned → (file ∈ g.files ↔ file ∈ g'.files)) ∧
      (content g {} (sections g {})).pieces ≠ (content g' {} (sections g' {})).pieces ∧
      withoutTypes (draft g {}).pieces = withoutTypes (draft g' {}).pieces := by
  intro g g'
  have hok : (generate g {} Sink.unlimited).2 = .ok () :=
    (generate_eq_ok_iff rfl rfl).2 (by decide +kernel)
  have hok' : (generate g' {} Sink.unlimited).2 = .ok () :=
    (generate_eq_ok_iff rfl rfl).2 (by decide +kernel)
  have howned : ∀ file : SchemaFile, file.isOwned →
      (file ∈ (Graph.ofFiles (besideImport declaringFile)).files ↔
        file ∈ (Graph.ofFiles (besideImport otherFile)).files) := by
    intro file hfile
    rw [Graph.mem_files_ofFiles_iff (by decide), Graph.mem_files_ofFiles_iff (by decide)]
    have hdeclaring : file ≠ declaringFile := fun h => absurd (h ▸ hfile) (by decide)
    have hother : file ≠ otherFile := fun h => absurd (h ▸ hfile) (by decide)
    simp [besideImport, hdeclaring, hother]
  exact ⟨hok, hok', howned, by decide +kernel,
    (withoutTypes_generate howned (Prod.ext rfl hok) (Prod.ext rfl hok')).2.2.1⟩

end Document

end SchemaPage
