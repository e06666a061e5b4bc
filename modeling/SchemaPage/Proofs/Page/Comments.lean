import Mathlib.Data.List.DropRight
import SchemaPage.Page.Table
import SchemaPage.Proofs.Text.Clean

/-!
# Comments on a page

A comment is shown without the blank lines at its ends, its lines one after the other with breaks
between them.  Nothing else is lost.  The breaks can be told from the lines because a line that has
been escaped has no angle bracket, and the characters of a line can be told from entities because an
ampersand is written as an entity itself.  So the lines come back from the markup, even where they
look like markup.

* `Text.IsTrimmed`, `Text.dropEnds_eq_iff`: what trimming leaves of a list, and nothing else.
* `Text.trim_eq_empty_iff`: blank lines are those that trimming leaves nothing of.
* `Text.unescape`, `Text.unescape_escape`: reading the entities of a text.
* `Markup.cutBreaks`, `Markup.cutBreaks_intercalate`: what stands between line breaks.
* `Comment.shown_lossless`: what is shown of a comment, and that its lines come back.
-/

namespace SchemaPage

/-! ## Trimming -/

namespace Text

section Trimming

variable {α : Type} {p : α → Bool} {l slice : List α}

/-- What is left between blank elements at both ends: all that is taken away is blank, and what is
left begins and ends with an element that is not, unless there is nothing left. -/
structure IsTrimmed (blank : α → Prop) (l slice : List α) : Prop where
  exists_ends : ∃ before after, l = before ++ slice ++ after ∧ (∀ a ∈ before, blank a) ∧
    ∀ a ∈ after, blank a
  first : ∀ a ∈ slice.head?, ¬ blank a
  last : ∀ a ∈ slice.getLast?, ¬ blank a

/-- Nothing is left of a list that is blank altogether. -/
theorem isTrimmed_nil_iff {blank : α → Prop} : IsTrimmed blank l [] ↔ ∀ a ∈ l, blank a := by
  constructor
  · rintro ⟨⟨before, after, rfl, hbefore, hafter⟩, -, -⟩
    rw [List.append_nil]
    exact List.forall_mem_append.2 ⟨hbefore, hafter⟩
  · intro h
    exact ⟨⟨l, [], by simp, h, nofun⟩, nofun, nofun⟩

theorem dropEnds_eq_rdropWhile (p : α → Bool) (l : List α) :
    dropEnds p l = (l.dropWhile p).rdropWhile p := rfl

theorem isTrimmed_dropEnds (p : α → Bool) (l : List α) :
    IsTrimmed (p · = true) l (dropEnds p l) := by
  rw [dropEnds_eq_rdropWhile]
  have hends : (l.dropWhile p).rdropWhile p ++ (l.dropWhile p).rtakeWhile p = l.dropWhile p :=
    List.rdropWhile_append_rtakeWhile
  refine ⟨⟨l.takeWhile p, (l.dropWhile p).rtakeWhile p, ?_, fun a => List.mem_takeWhile_imp,
    fun a => List.mem_rtakeWhile_imp⟩, fun a ha => ?_, fun a ha => ?_⟩
  · rw [List.append_assoc, hends, List.takeWhile_append_dropWhile]
  · -- what is left begins like the list without its blank front
    have hhead : (l.dropWhile p).head? = some a := by
      rw [← hends, List.head?_append_of_ne_nil _ (List.ne_nil_of_mem (List.mem_of_mem_head? ha))]
      exact ha
    have hnot := List.head?_dropWhile_not p l
    rw [hhead] at hnot
    simpa using hnot
  · obtain ⟨hne, rfl⟩ := List.mem_getLast?_eq_getLast ha
    exact List.rdropWhile_last_not p _ hne

/-- Blank elements in front of one that is not are dropped, and nothing else. -/
theorem dropWhile_append_of_first {before : List α} (hbefore : ∀ a ∈ before, p a = true)
    (hfirst : ∀ a ∈ l.head?, ¬ p a = true) : (before ++ l).dropWhile p = l := by
  rw [List.dropWhile_append_of_pos hbefore]
  cases l with
  | nil => rfl
  | cons a l => exact List.dropWhile_cons_of_neg (hfirst a rfl)

/-- Likewise behind one. -/
theorem rdropWhile_append_of_last {after : List α} (hafter : ∀ a ∈ after, p a = true)
    (hlast : ∀ a ∈ l.getLast?, ¬ p a = true) : (l ++ after).rdropWhile p = l := by
  have hreverse : (after.reverse ++ l.reverse).dropWhile p = l.reverse := by
    refine dropWhile_append_of_first (fun a ha => hafter a (List.mem_reverse.1 ha)) fun a ha => ?_
    rw [List.head?_reverse] at ha
    exact hlast a ha
  rw [List.rdropWhile, List.reverse_append, hreverse, List.reverse_reverse]

/-- A list is trimmed in one way only. -/
theorem dropEnds_eq_iff : dropEnds p l = slice ↔ IsTrimmed (p · = true) l slice := by
  constructor
  · rintro rfl
    exact isTrimmed_dropEnds p l
  · intro h
    by_cases hslice : slice = []
    · subst hslice
      rw [dropEnds_eq_rdropWhile, List.dropWhile_eq_nil_iff.2 (isTrimmed_nil_iff.1 h),
        List.rdropWhile_nil]
    · obtain ⟨⟨before, after, rfl, hbefore, hafter⟩, hfirst, hlast⟩ := h
      have hhead : ∀ a ∈ (slice ++ after).head?, ¬ p a = true := by
        rw [List.head?_append_of_ne_nil _ hslice]
        exact hfirst
      rw [dropEnds_eq_rdropWhile, List.append_assoc, dropWhile_append_of_first hbefore hhead,
        rdropWhile_append_of_last hafter hlast]

/-- What has been trimmed is left as it is. -/
theorem dropEnds_dropEnds (p : α → Bool) (l : List α) :
    dropEnds p (dropEnds p l) = dropEnds p l := by
  have h := isTrimmed_dropEnds p l
  exact dropEnds_eq_iff.2 ⟨⟨[], [], by simp, nofun, nofun⟩, h.first, h.last⟩

end Trimming

/-- A blank text is one that trimming leaves nothing of. -/
theorem trim_eq_empty_iff {s : String} : trim s = "" ↔ isBlank s = true := by
  have htrim : trim s = "" ↔ dropEnds isSpace s.toList = [] := by
    rw [← String.toList_inj, trim, String.toList_ofList]
    rfl
  rw [htrim, dropEnds_eq_iff, isTrimmed_nil_iff, isBlank, List.all_eq_true]

/-! ## Entities -/

/-- The text that some markup stands for, the five entities being read as what they stand for. -/
def unescape : List Char → List Char
  | '&' :: '#' :: '3' :: '4' :: ';' :: r => '"' :: unescape r
  | '&' :: '#' :: '3' :: '8' :: ';' :: r => '&' :: unescape r
  | '&' :: '#' :: '3' :: '9' :: ';' :: r => '\'' :: unescape r
  | '&' :: '#' :: '6' :: '0' :: ';' :: r => '<' :: unescape r
  | '&' :: '#' :: '6' :: '2' :: ';' :: r => '>' :: unescape r
  | c :: r => c :: unescape r
  | [] => []

/-- Only an ampersand begins an entity. -/
theorem unescape_cons {c : Char} (h : c ≠ '&') (r : List Char) :
    unescape (c :: r) = c :: unescape r := by
  conv_lhs => unfold unescape
  split <;> simp_all

theorem unescape_escapeChar_append (c : Char) (r : List Char) :
    unescape (escapeChar c ++ r) = c :: unescape r := by
  unfold escapeChar
  split
  · rfl
  · rfl
  · rfl
  · rfl
  · rfl
  · rename_i hand _ _ _
    exact unescape_cons hand r

/-- An escaped text stands for the text itself. -/
theorem unescape_escape (s : String) : unescape (escape s).toList = s.toList := by
  rw [escape, String.toList_ofList]
  induction s.toList with
  | nil => rfl
  | cons c cs ih => rw [List.flatMap_cons, unescape_escapeChar_append, ih]

/-- An escaped text has no angle bracket. -/
theorem not_mem_escape (s : String) : '<' ∉ (escape s).toList := fun h =>
  absurd ((isClean_escape s).eq_ampersand '<' h (by decide)) (by decide)

end Text

/-! ## Line breaks -/

namespace Markup

/-- The stretches of markup between line breaks. -/
def cutBreaks : List Char → List (List Char)
  | '<' :: 'b' :: 'r' :: '/' :: '>' :: r => [] :: cutBreaks r
  | c :: r => (cutBreaks r).modifyHead (c :: ·)
  | [] => [[]]

/-- Only an angle bracket begins a line break. -/
theorem cutBreaks_cons {c : Char} (h : c ≠ '<') (r : List Char) :
    cutBreaks (c :: r) = (cutBreaks r).modifyHead (c :: ·) := by
  conv_lhs => unfold cutBreaks
  split <;> simp_all

/-- What stands before the first angle bracket belongs to the first stretch. -/
theorem cutBreaks_append {l : List Char} (h : '<' ∉ l) (r : List Char) :
    cutBreaks (l ++ r) = (cutBreaks r).modifyHead (l ++ ·) := by
  induction l with
  | nil =>
    cases hr : cutBreaks r with
    | nil => rw [List.nil_append, hr]; rfl
    | cons stretch rest => rw [List.nil_append, hr]; rfl
  | cons c l ih =>
    have hc : c ≠ '<' := fun hc => h (hc ▸ List.mem_cons_self)
    have hl : '<' ∉ l := fun hl => h (List.mem_cons_of_mem c hl)
    rw [List.cons_append, cutBreaks_cons hc, ih hl]
    cases cutBreaks r <;> rfl

/-- Lines without angle brackets are what stands between the breaks that are put between them. -/
theorem cutBreaks_intercalate {lines : List (List Char)} (hne : lines ≠ [])
    (h : ∀ line ∈ lines, '<' ∉ line) : cutBreaks ("<br/>".toList.intercalate lines) = lines := by
  induction lines with
  | nil => exact absurd rfl hne
  | cons line lines ih =>
    have hline := h line List.mem_cons_self
    cases lines with
    | nil =>
      have hone := cutBreaks_append hline []
      rw [List.append_nil] at hone
      rw [List.intercalate_singleton, hone]
      show [line ++ []] = [line]
      rw [List.append_nil]
    | cons next lines =>
      have hrest := ih (List.cons_ne_nil next lines) fun l hl => h l (List.mem_cons_of_mem line hl)
      rw [List.intercalate_cons_cons, List.append_assoc, cutBreaks_append hline]
      have hbreak : cutBreaks ("<br/>".toList ++ "<br/>".toList.intercalate (next :: lines)) =
          [] :: cutBreaks ("<br/>".toList.intercalate (next :: lines)) := rfl
      rw [hbreak, hrest, List.modifyHead_cons, List.append_nil]

/-- The lines that a reader sees. -/
def shownLines (html : String) : List String :=
  (cutBreaks html.toList).map fun stretch => String.ofList (Text.unescape stretch)

theorem render_lines (lines : List String) :
    render ((lines.map Piece.text).intersperse .lineBreak) =
      "<br/>".intercalate (lines.map Text.escape) := by
  induction lines with
  | nil => rfl
  | cons line lines ih =>
    cases lines with
    | nil => simp [render, Piece.render]
    | cons next lines =>
      have hbreak : render [.text line, .lineBreak] = Text.escape line ++ "<br/>" := by
        simp [render, Piece.render]
      rw [List.map_cons, List.map_cons, List.map_cons, List.map_cons, List.intersperse_cons_cons,
        String.intercalate_cons_cons, ← hbreak, ← List.map_cons, ← List.map_cons, ← ih]
      exact render_append [.text line, .lineBreak] _

/-- The lines between the breaks are read back as they were. -/
theorem shownLines_render {lines : List String} (hne : lines ≠ []) :
    shownLines (render ((lines.map Piece.text).intersperse .lineBreak)) = lines := by
  have hescaped : (lines.map Text.escape).map String.toList ≠ [] := by simpa using hne
  have hbare : ∀ stretch ∈ (lines.map Text.escape).map String.toList, '<' ∉ stretch := by
    intro stretch hstretch
    obtain ⟨_, hmem, rfl⟩ := List.mem_map.1 hstretch
    obtain ⟨line, -, rfl⟩ := List.mem_map.1 hmem
    exact Text.not_mem_escape line
  rw [shownLines, render_lines, String.toList_intercalate, cutBreaks_intercalate hescaped hbare]
  simp only [List.map_map]
  refine List.map_id'' (fun line => ?_) lines
  show String.ofList (Text.unescape (Text.escape line).toList) = line
  rw [Text.unescape_escape, String.ofList_toList]

/-- Lines are shown as nothing only when there are none, or one that is empty. -/
theorem render_lines_eq_empty_iff {lines : List String} :
    render ((lines.map Piece.text).intersperse .lineBreak) = "" ↔ lines = [] ∨ lines = [""] := by
  constructor
  · intro h
    by_cases hne : lines = []
    · exact Or.inl hne
    · have hshown := shownLines_render hne
      rw [h] at hshown
      exact Or.inr hshown.symm
  · rintro (rfl | rfl) <;> rfl

end Markup

namespace Comment

/-- Lines are trimmed in one way only, by what a reader takes for a blank line. -/
theorem trimLines_eq_iff {lines slice : List String} :
    trimLines lines = slice ↔ Text.IsTrimmed (Text.trim · = "") lines slice := by
  have hblank : (fun line => Text.trim line = "") = fun line => Text.isBlank line = true :=
    funext fun _ => propext Text.trim_eq_empty_iff
  rw [hblank]
  exact Text.dropEnds_eq_iff

theorem trimLines_eq_nil_iff {lines : List String} :
    trimLines lines = [] ↔ ∀ line ∈ lines, Text.trim line = "" := by
  rw [trimLines_eq_iff, Text.isTrimmed_nil_iff]

/-- An empty line is not left at an end. -/
theorem trimLines_ne_singleton_empty (lines : List String) : trimLines lines ≠ [""] := fun h =>
  (trimLines_eq_iff.1 h).first "" rfl rfl

/-- The lines of a comment that may be absent. -/
def linesOf (comment : Option Comment) : List String := comment.elim [] lines

theorem commentPieces_eq (comment : Option Comment) :
    commentPieces comment = ((trimLines (linesOf comment)).map .text).intersperse .lineBreak := by
  cases comment <;> rfl

/-- A comment is shown without loss.  Trimming leaves the one stretch of the lines that has all
lines that are not blank and begins and ends with such a line, and trimming once more leaves this as
it is.  Nothing is shown of a comment when all its lines are blank.  Otherwise the trimmed lines are
what stands between the line breaks when the entities in it are read, whatever is written in
them. -/
theorem shown_lossless :
    (∀ lines slice, trimLines lines = slice ↔ Text.IsTrimmed (Text.trim · = "") lines slice) ∧
    (∀ lines, trimLines (trimLines lines) = trimLines lines) ∧
    ∀ comment : Option Comment,
      (Markup.render (commentPieces comment) = "" ↔ ∀ line ∈ linesOf comment, Text.trim line = "") ∧
      (Markup.render (commentPieces comment) ≠ "" →
        Markup.shownLines (Markup.render (commentPieces comment)) =
          trimLines (linesOf comment)) := by
  refine ⟨fun _ _ => trimLines_eq_iff,
    fun lines => Text.dropEnds_dropEnds _ lines, fun comment => ?_⟩
  have hempty : Markup.render (commentPieces comment) = "" ↔ trimLines (linesOf comment) = [] := by
    rw [commentPieces_eq, Markup.render_lines_eq_empty_iff]
    exact or_iff_left (trimLines_ne_singleton_empty _)
  refine ⟨hempty.trans trimLines_eq_nil_iff, fun hne => ?_⟩
  rw [commentPieces_eq]
  exact Markup.shownLines_render (mt hempty.2 hne)

/-- A break or an entity that is written in a line is shown as it is written. -/
example : Markup.render (commentPieces (some ⟨["", "a<br/>&#60;", " ", "b", "\t"]⟩)) =
    "a&#60;br/&#62;&#38;#60;<br/> <br/>b" := by decide +kernel

end Comment

end SchemaPage
