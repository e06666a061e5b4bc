import SchemaPage.Proofs.Page.Grammar
import SchemaPage.Proofs.Page.Stylesheet

/-!
# The tags of a page

The tags of a page are read off its text, as a reader does who knows nothing of the pieces that it
was written from: a tag is what stands between a `<` and the next `>` that is not quoted.  The tags
of a written page nest and are all closed, because the page is a fragment, and what comes from a
schema has no sign of markup that could begin a tag or end one.

* `Markup.tagsFrom`: the tags in a text.
* `Markup.nest`: what a list of tags does to the elements that are open.
* `Markup.IsNested`: a text whose tags nest and are all closed.
* `Markup.Fragment.isClosed`: a fragment leaves the open elements as they are.
* `Markup.Fragment.fixed_or_framed`: a piece is fixed or holds one clean text in a fixed frame.
* `Document.isNested_generate`: both of a written page.
-/

namespace SchemaPage

open Markup

/-! ## Reading tags -/

/-- Every element that has content. -/
def Tag.all : List Tag :=
  [html, head, title, style, body, header, footer, div, part, h1, table, tr, th, td, a, span, p]

theorem Tag.mem_all (tag : Tag) : tag ∈ Tag.all := by
  cases tag <;> decide

/-- What a tag does. -/
inductive TagMark where
  | opens (tag : Tag)
  | closes (tag : Tag)
  /-- The tag stands for itself. -/
  | alone
  deriving DecidableEq, Repr

namespace TagMark

/-- The names of the tags that stand for themselves. -/
def aloneNames : List (List Char) := ["!DOCTYPE".toList, "meta".toList, "br/".toList]

/-- The element with a name. -/
def tagOf? (name : List Char) : Option Tag := Tag.all.find? (·.name.toList == name)

/-- What a tag does that begins with a name. -/
def ofName? (name : List Char) : Option TagMark :=
  if name ∈ aloneNames then some alone else (tagOf? name).map opens

/-- What a tag does, by the text between its angle brackets.  Its name ends at the first blank. -/
def ofText? : List Char → Option TagMark
  | [] => none
  | c :: text =>
    if c = '/' then (tagOf? text).map closes else ofName? ((c :: text).takeWhile (· != ' '))

end TagMark

namespace Markup

/-- Where a reader of markup is: between tags, inside a tag, or inside a quoted value in a tag.
Inside a tag the reader keeps what has been read of it. -/
inductive Reading where
  | outside
  | inside (read : List Char)
  | quoted (read : List Char)
  deriving DecidableEq, Repr

/-- The tags in a text, read on from some point.  There are none to tell when a bracket stands where
it has no meaning, when a tag has no known name, or when the text ends inside a tag. -/
def tagsFrom : Reading → List Char → Option (List TagMark)
  | .outside, [] => some []
  | .outside, c :: cs =>
    if c = '<' then tagsFrom (.inside []) cs
    else if c = '>' then none
    else tagsFrom .outside cs
  | .inside _, [] => none
  | .inside read, c :: cs =>
    if c = '>' then do
      let mark ← TagMark.ofText? read
      let marks ← tagsFrom .outside cs
      return mark :: marks
    else if c = '<' then none
    else if c = '"' then tagsFrom (.quoted (read ++ [c])) cs
    else tagsFrom (.inside (read ++ [c])) cs
  | .quoted _, [] => none
  | .quoted read, c :: cs =>
    if c = '"' then tagsFrom (.inside (read ++ [c])) cs else tagsFrom (.quoted (read ++ [c])) cs

/-- The elements that are open after some tags, the innermost first.  Only the innermost one can be
closed. -/
def nest : List Tag → List TagMark → Option (List Tag)
  | inner, [] => some inner
  | inner, .opens tag :: marks => nest (tag :: inner) marks
  | inner, .alone :: marks => nest inner marks
  | [], .closes _ :: _ => none
  | tag :: inner, .closes tag' :: marks => if tag = tag' then nest inner marks else none

/-- The tags in the text nest, and every element is closed. -/
def IsNested (text : String) : Prop := (tagsFrom .outside text.toList).bind (nest []) = some []

/-! ## Texts one after the other -/

/-- The tags of a text that ends between tags come before those of what follows. -/
theorem tagsFrom_append {l r : List Char} {marks marks' : List TagMark} {reading : Reading}
    (hl : tagsFrom reading l = some marks) (hr : tagsFrom .outside r = some marks') :
    tagsFrom reading (l ++ r) = some (marks ++ marks') := by
  -- a text that is read ends outside of all tags, where reading goes on with `r`
  induction l generalizing reading marks with
  | nil =>
    cases reading with
    | outside =>
      obtain rfl := Option.some_inj.1 hl
      exact hr
    | inside read => exact nomatch hl
    | quoted read => exact nomatch hl
  | cons c l ih =>
    cases reading with
    | outside =>
      rw [List.cons_append]
      unfold tagsFrom at hl ⊢
      split_ifs at hl ⊢
      · exact ih hl
      · exact ih hl
    | inside read =>
      rw [List.cons_append]
      unfold tagsFrom at hl ⊢
      split_ifs at hl ⊢
      · obtain ⟨mark, hmark, hl⟩ := Option.bind_eq_some_iff.1 hl
        obtain ⟨rest, hrest, hl⟩ := Option.bind_eq_some_iff.1 hl
        obtain rfl := Option.some_inj.1 hl
        rw [hmark, ih hrest]
        rfl
      · exact ih hl
      · exact ih hl
    | quoted read =>
      rw [List.cons_append]
      unfold tagsFrom at hl ⊢
      split_ifs at hl ⊢
      · exact ih hl
      · exact ih hl

theorem nest_append {inner inner' : List Tag} {marks : List TagMark}
    (h : nest inner marks = some inner') (marks' : List TagMark) :
    nest inner (marks ++ marks') = nest inner' marks' := by
  fun_induction nest inner marks with
  | case1 inner =>
    obtain rfl := Option.some_inj.1 h
    rfl
  | case2 inner tag marks ih => exact ih h
  | case3 inner marks ih => exact ih h
  | case4 => exact nomatch h
  | case5 inner tag marks ih =>
    rw [List.cons_append, nest, if_pos rfl]
    exact ih h
  | case6 => exact nomatch h

/-- The tags in the text leave the open elements as they are. -/
def IsClosed (cs : List Char) : Prop :=
  ∃ marks, tagsFrom .outside cs = some marks ∧ ∀ inner, nest inner marks = some inner

theorem IsClosed.isNested {text : String} (h : IsClosed text.toList) : IsNested text := by
  obtain ⟨marks, hmarks, hnest⟩ := h
  rw [IsNested, hmarks]
  exact hnest []

theorem IsClosed.append {l r : List Char} (hl : IsClosed l) (hr : IsClosed r) :
    IsClosed (l ++ r) := by
  obtain ⟨marks, hmarks, hnest⟩ := hl
  obtain ⟨marks', hmarks', hnest'⟩ := hr
  refine ⟨marks ++ marks', tagsFrom_append hmarks hmarks', fun inner => ?_⟩
  rw [nest_append (hnest inner), hnest' inner]

/-- An element that is opened and closed around closed content. -/
theorem IsClosed.element {start content finish : List Char} {tag : Tag} (hc : IsClosed content)
    (hstart : tagsFrom .outside start = some [.opens tag])
    (hfinish : tagsFrom .outside finish = some [.closes tag]) :
    IsClosed (start ++ content ++ finish) := by
  obtain ⟨marks, hmarks, hnest⟩ := hc
  refine ⟨_, tagsFrom_append (tagsFrom_append hstart hmarks) hfinish, fun inner => ?_⟩
  have hopen : nest inner ([.opens tag] ++ marks) = some (tag :: inner) := hnest (tag :: inner)
  rw [nest_append hopen, nest, if_pos rfl, nest]

/-! ## Pieces -/

/-- A text without angle brackets has no tags. -/
theorem tagsFrom_of_forall {cs : List Char} (h : ∀ c ∈ cs, c ≠ '<' ∧ c ≠ '>') :
    tagsFrom .outside cs = some [] := by
  induction cs with
  | nil => rfl
  | cons c cs ih =>
    obtain ⟨hleft, hright⟩ := h c List.mem_cons_self
    rw [tagsFrom, if_neg hleft, if_neg hright]
    exact ih fun d hd => h d (List.mem_cons_of_mem c hd)

/-- Inside a tag all characters are read but quotes and brackets. -/
theorem tagsFrom_inside_append {cs : List Char} (h : ∀ c ∈ cs, c ∉ Text.signs)
    (read r : List Char) :
    tagsFrom (.inside read) (cs ++ r) = tagsFrom (.inside (read ++ cs)) r := by
  induction cs generalizing read with
  | nil => rw [List.nil_append, List.append_nil]
  | cons c cs ih =>
    have hc := h c List.mem_cons_self
    have hne : c ≠ '>' ∧ c ≠ '<' ∧ c ≠ '"' := by
      refine ⟨?_, ?_, ?_⟩ <;> rintro rfl <;> exact hc (by decide)
    rw [List.cons_append, tagsFrom, if_neg hne.1, if_neg hne.2.1, if_neg hne.2.2,
      ih fun d hd => h d (List.mem_cons_of_mem c hd), List.append_assoc, List.singleton_append]

/-- Inside a quoted value all characters are read but quotes. -/
theorem tagsFrom_quoted_append {cs : List Char} (h : ∀ c ∈ cs, c ∉ Text.signs)
    (read r : List Char) :
    tagsFrom (.quoted read) (cs ++ r) = tagsFrom (.quoted (read ++ cs)) r := by
  induction cs generalizing read with
  | nil => rw [List.nil_append, List.append_nil]
  | cons c cs ih =>
    have hne : c ≠ '"' := by
      rintro rfl
      exact h _ List.mem_cons_self (by decide)
    rw [List.cons_append, tagsFrom, if_neg hne, ih fun d hd => h d (List.mem_cons_of_mem c hd),
      List.append_assoc, List.singleton_append]

/-- Inside a tag attributes are read to their end. -/
theorem tagsFrom_attributes_append {attributes : List Attribute}
    (h : ∀ a ∈ attributes, Text.IsPlain a.name.toList ∧ Text.IsPlain a.value.toList)
    (read r : List Char) :
    tagsFrom (.inside read) (attributes.flatMap (·.render.toList) ++ r) =
      tagsFrom (.inside (read ++ attributes.flatMap (·.render.toList))) r := by
  induction attributes generalizing read with
  | nil => rw [List.flatMap_nil, List.nil_append, List.append_nil]
  | cons a attributes ih =>
    obtain ⟨hname, hvalue⟩ := h a List.mem_cons_self
    have hbefore : ∀ c ∈ ' ' :: (a.name.toList ++ ['=']), c ∉ Text.signs := by
      rw [List.forall_mem_cons, List.forall_mem_append, List.forall_mem_singleton]
      exact ⟨by decide, hname, by decide⟩
    have hrender : a.render.toList =
        ' ' :: (a.name.toList ++ ['=']) ++ '"' :: (a.value.toList ++ ['"']) := by
      simp [Attribute.render]
    have hread : ∀ rest, tagsFrom (.inside read) (a.render.toList ++ rest) =
        tagsFrom (.inside (read ++ a.render.toList)) rest := by
      intro rest
      rw [hrender, List.append_assoc, tagsFrom_inside_append hbefore, List.cons_append, tagsFrom,
        if_neg (by decide), if_neg (by decide), if_pos rfl, List.append_assoc a.value.toList,
        tagsFrom_quoted_append hvalue, List.singleton_append, tagsFrom, if_pos rfl]
      simp
    rw [List.flatMap_cons, List.append_assoc, hread,
      ih fun b hb => h b (List.mem_cons_of_mem a hb), List.append_assoc]

/-- A tag with a name and attributes does what its name says. -/
theorem tagsFrom_tag {name : List Char} {mark : TagMark} (hmark : TagMark.ofName? name = some mark)
    (hname : ∀ c ∈ name, c ∉ Text.signs ∧ c ≠ ' ' ∧ c ≠ '/') (hne : name ≠ [])
    {attributes : List Attribute}
    (h : ∀ a ∈ attributes, Text.IsPlain a.name.toList ∧ Text.IsPlain a.value.toList) :
    tagsFrom .outside ('<' :: (name ++ (attributes.flatMap (·.render.toList) ++ ['>']))) =
      some [mark] := by
  have hblank : (attributes.flatMap (·.render.toList)).takeWhile (· != ' ') = [] := by
    cases attributes with
    | nil => rfl
    | cons a attributes => simp [Attribute.render]
  have htext : TagMark.ofText? (name ++ attributes.flatMap (·.render.toList)) = some mark := by
    obtain ⟨c, rest, rfl⟩ := List.exists_cons_of_ne_nil hne
    rw [List.cons_append, TagMark.ofText?, if_neg (hname c List.mem_cons_self).2.2,
      ← List.cons_append, List.takeWhile_append_of_pos fun d hd => by simpa using (hname d hd).2.1,
      hblank, List.append_nil, hmark]
  rw [tagsFrom, if_pos rfl, tagsFrom_inside_append fun c hc => (hname c hc).1,
    tagsFrom_attributes_append h, tagsFrom, if_pos rfl, List.nil_append, htext]
  rfl

/-- The elements of the grammar begin with a tag that opens them. -/
theorem tagsFrom_opening {tag : Tag} {attributes : List Attribute}
    (h : (tag, attributes) ∈ Grammar.pageHeads ∨ Grammar.Refers tag attributes) :
    tagsFrom .outside (Piece.opening tag attributes).render.toList = some [.opens tag] := by
  have hheads : ∀ head ∈ Grammar.pageHeads, ∀ a ∈ head.2,
      Text.IsPlain a.name.toList ∧ Text.IsPlain a.value.toList := by decide +kernel
  have hwords : Text.IsPlain "href".toList ∧ Text.IsPlain "name".toList ∧
      Text.IsPlain "#".toList := by
    decide
  have hplain : ∀ a ∈ attributes, Text.IsPlain a.name.toList ∧ Text.IsPlain a.value.toList := by
    rcases h with h | @⟨x, h⟩ | @⟨x, h⟩
    · exact hheads _ h
    · rw [List.forall_mem_singleton, String.toList_append]
      exact ⟨hwords.1, List.forall_mem_append.2 ⟨hwords.2.2, h⟩⟩
    · exact List.forall_mem_singleton.2 ⟨hwords.2.1, h⟩
  have hname : ∀ tag : Tag, TagMark.ofName? tag.name.toList = some (.opens tag) ∧
      (tag.name.toList.all fun c => c ∉ Text.signs ∧ c ≠ ' ' ∧ c ≠ '/') = true ∧
      tag.name.toList ≠ [] := by
    intro tag
    cases tag <;> decide
  obtain ⟨hmark, hall, hne⟩ := hname tag
  have hchars : ∀ c ∈ tag.name.toList, c ∉ Text.signs ∧ c ≠ ' ' ∧ c ≠ '/' := fun c hc =>
    of_decide_eq_true (List.all_eq_true.1 hall c hc)
  have hrender : (Piece.opening tag attributes).render.toList =
      '<' :: (tag.name.toList ++ (attributes.flatMap (·.render.toList) ++ ['>'])) := by
    simp [Piece.render, String.toList_join, List.flatMap_map]
  rw [hrender]
  exact tagsFrom_tag hmark hchars hne hplain

theorem tagsFrom_closing (tag : Tag) :
    tagsFrom .outside (Piece.closing tag).render.toList = some [.closes tag] := by
  cases tag <;> decide +kernel

theorem isClosed_text (t : String) : IsClosed (Piece.text t).render.toList := by
  refine ⟨[], tagsFrom_of_forall fun c hc => ?_, fun _ => rfl⟩
  have hclean := (Text.isClean_escape t).eq_ampersand c hc
  constructor <;> rintro rfl <;> exact absurd (hclean (by decide)) (by decide)

/-- A fixed piece has no tag or one that stands for itself. -/
theorem isClosed_single {p : Piece} (h : p ∈ Grammar.singles) : IsClosed p.render.toList := by
  have hmarks : ∀ p ∈ Grammar.marks, tagsFrom .outside p.render.toList = some [] ∨
      tagsFrom .outside p.render.toList = some [.alone] := by decide +kernel
  rcases List.mem_cons.1 h with rfl | h
  · exact ⟨[], tagsFrom_of_forall Stylesheet.no_bracket_render, fun _ => rfl⟩
  · rcases hmarks p h with hp | hp
    · exact ⟨[], hp, fun _ => rfl⟩
    · exact ⟨[.alone], hp, fun _ => rfl⟩

theorem toList_render_append (l r : List Piece) :
    (render (l ++ r)).toList = (render l).toList ++ (render r).toList := by
  rw [render_append, String.toList_append]

theorem toList_render_singleton (p : Piece) : (render [p]).toList = p.render.toList := by
  simp [render, String.join]

/-- A fragment leaves the open elements as they are. -/
theorem Fragment.isClosed {pieces : List Piece} (h : Fragment Grammar.pageHeads pieces) :
    IsClosed (render pieces).toList := by
  induction h with
  | nil => exact ⟨[], rfl, fun _ => rfl⟩
  | text t =>
    rw [toList_render_singleton]
    exact isClosed_text t
  | single h =>
    rw [toList_render_singleton]
    exact isClosed_single h
  | @element tag attributes content h _ ih =>
    have hlist : .opening tag attributes :: content ++ [.closing tag] =
        [.opening tag attributes] ++ content ++ [Piece.closing tag] := rfl
    rw [hlist, toList_render_append, toList_render_append, toList_render_singleton,
      toList_render_singleton]
    exact ih.element (tagsFrom_opening h) (tagsFrom_closing tag)
  | append _ _ ihl ihr =>
    rw [toList_render_append]
    exact ihl.append ihr

end Markup

/-! ## What comes from a schema -/

namespace Grammar

/-- The pieces of a page that hold nothing from a schema. -/
def fixed : List Piece :=
  singles ++ pageHeads.map (fun head => .opening head.1 head.2) ++ Tag.all.map .closing

/-- What stands before and after a text from a schema. -/
def frames : List (String × String) := [("", ""), ("<a href=\"#", "\">"), ("<a name=\"", "\">")]

end Grammar

open Grammar

/-- A link and an anchor hold one plain text. -/
theorem Grammar.Refers.framed {tag : Tag} {attributes : List Attribute}
    (h : Refers tag attributes) :
    ∃ frame ∈ frames, ∃ value : String, Text.IsClean value.toList ∧
      (Piece.opening tag attributes).render = frame.1 ++ value ++ frame.2 := by
  cases h with
  | @link x h =>
    refine ⟨("<a href=\"#", "\">"), by decide, x, h.isClean, ?_⟩
    simp [← String.toList_inj, Piece.render, Attribute.render, Tag.name, String.join]
  | @anchor x h =>
    refine ⟨("<a name=\"", "\">"), by decide, x, h.isClean, ?_⟩
    simp [← String.toList_inj, Piece.render, Attribute.render, Tag.name, String.join]

/-- A piece of a fragment is fixed or holds one clean text in a fixed frame. -/
theorem Markup.Fragment.fixed_or_framed {pieces : List Piece} (h : Fragment pageHeads pieces) :
    ∀ p ∈ pieces, p ∈ fixed ∨ ∃ frame ∈ frames, ∃ value : String, Text.IsClean value.toList ∧
      p.render = frame.1 ++ value ++ frame.2 := by
  induction h with
  | nil => exact nofun
  | text t =>
    intro p hp
    obtain rfl := List.mem_singleton.1 hp
    refine Or.inr ⟨("", ""), by decide, Text.escape t, Text.isClean_escape t, ?_⟩
    simp [Piece.render]
  | single h =>
    intro p hp
    obtain rfl := List.mem_singleton.1 hp
    exact Or.inl (List.mem_append_left _ (List.mem_append_left _ h))
  | @element tag attributes content h _ ih =>
    intro p hp
    rcases List.mem_append.1 hp with hp | hp
    · rcases List.mem_cons.1 hp with rfl | hp
      · rcases h with h | h
        · refine Or.inl (List.mem_append_left _ (List.mem_append_right _ ?_))
          exact List.mem_map_of_mem (f := fun head => Piece.opening head.1 head.2) h
        · exact Or.inr h.framed
      · exact ih p hp
    · obtain rfl := List.mem_singleton.1 hp
      exact Or.inl (List.mem_append_right _ (List.mem_map_of_mem (Tag.mem_all tag)))
  | append _ _ ihl ihr =>
    intro p hp
    exact (List.mem_append.1 hp).elim (ihl p) (ihr p)

namespace Document

/-- A page that is written to its end is there in full; its tags nest and are all closed, and each
of its pieces is one of finitely many fixed ones or holds one text, in a fixed frame, that has no
sign of markup but the ampersands of entities. -/
theorem isNested_generate {g : Graph} {options : PageOptions} {s s' : Sink}
    (h : generate g options s = (s', .ok ())) :
    let page := (draft g options).pieces
    s'.taken = s.taken ++ (Markup.render page).toUTF8 ∧ Markup.IsNested (Markup.render page) ∧
      ∀ p ∈ page, p ∈ fixed ∨ ∃ frame ∈ frames, ∃ value : String, Text.IsClean value.toList ∧
        p.render = frame.1 ++ value ++ frame.2 := by
  intro page
  obtain ⟨hnone, htaken⟩ := generate_eq_ok h
  have hpage : Fragment pageHeads page := forms_draft g options hnone
  exact ⟨htaken, hpage.isClosed.isNested, hpage.fixed_or_framed⟩

/-- A file in which every text has signs of markup. -/
def signsEverywhere : List SchemaFile :=
  let comment : Comment := ⟨["</p><script>alert('&')</script>", "<!-- \" -->"]⟩
  let field : PlainField := ⟨"f\"><a>", "int32", 1, false, true, false, some comment⟩
  [⟨"<a href='.proto'>", "p&q</div>", .owned, [], [],
    [⟨"M</a>", [.plain field, .oneof "\"o\"" [.plain field] (some comment)], some comment⟩]⟩]

/-- Its page has tags that nest. -/
theorem isNested_signsEverywhere :
    let g := Graph.ofFiles signsEverywhere
    let options : PageOptions := { title := "</title><b title=\"'\">&" }
    (generate g options Sink.unlimited).2 = .ok () ∧
      Markup.IsNested (Markup.render (draft g options).pieces) := by
  intro g options
  have hok : (generate g options Sink.unlimited).2 = .ok () :=
    (generate_eq_ok_iff rfl rfl).2 (by decide +kernel)
  exact ⟨hok, (isNested_generate (Prod.ext rfl hok)).2.1⟩

end Document

end SchemaPage
