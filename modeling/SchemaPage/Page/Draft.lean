import SchemaPage.Graph.Resolve
import SchemaPage.Page.Markup

/-!
# Drafts

A draft is a stretch of a page as it comes out: pieces of markup, and possibly the reference that
made the page stop there.  Drafts are put one after the other; nothing follows a draft that has
stopped.

* `Draft.append_assoc`, `Draft.empty_append`, `Draft.append_empty`: drafts form a monoid.
* `Draft.concat`: a list of drafts, one after the other.
-/

namespace SchemaPage

/-- A stretch of a page, with the failure that ended it, if one did. -/
structure Draft where
  pieces : List Piece
  failure : Option ResolveError
  deriving DecidableEq, Repr

namespace Draft

/-- Nothing. -/
def empty : Draft := ⟨[], none⟩

/-- Pieces that need no reference. -/
def ofPieces (pieces : List Piece) : Draft := ⟨pieces, none⟩

/-- Pieces that come out only when their references are found. -/
def ofExcept : Except ResolveError (List Piece) → Draft
  | .ok pieces => ⟨pieces, none⟩
  | .error e => ⟨[], some e⟩

/-- One draft after another, unless the first has stopped. -/
protected def append (d e : Draft) : Draft :=
  match d.failure with
  | some _ => d
  | none => ⟨d.pieces ++ e.pieces, e.failure⟩

instance : Append Draft := ⟨Draft.append⟩

/-- Drafts one after the other, up to the first that has stopped. -/
def concat : List Draft → Draft
  | [] => empty
  | d :: ds => d ++ concat ds

/-- The written form of what comes out. -/
def text (d : Draft) : String := Markup.render d.pieces

theorem append_def (d e : Draft) :
    d ++ e = match d.failure with
      | some _ => d
      | none => ⟨d.pieces ++ e.pieces, e.failure⟩ := rfl

@[simp] theorem empty_append (d : Draft) : empty ++ d = d := by
  simp [append_def, empty]

@[simp] theorem append_empty (d : Draft) : d ++ empty = d := by
  obtain ⟨pieces, failure⟩ := d
  cases failure <;> simp [append_def, empty]

theorem append_assoc (d e f : Draft) : d ++ e ++ f = d ++ (e ++ f) := by
  obtain ⟨dp, df⟩ := d
  obtain ⟨ep, ef⟩ := e
  cases df <;> cases ef <;> simp [append_def]

@[simp] theorem concat_nil : concat [] = empty := rfl

@[simp] theorem concat_cons (d : Draft) (ds : List Draft) : concat (d :: ds) = d ++ concat ds := rfl

theorem concat_append (ds es : List Draft) : concat (ds ++ es) = concat ds ++ concat es := by
  induction ds with
  | nil => simp
  | cons d ds ih => simp [ih, append_assoc]

end Draft

end SchemaPage
