import SchemaPage.Log
import SchemaPage.Page.Document

/-!
# What is reported while a page is written

The size of every section is reported first.  Then each block is reported as it begins, followed by
the type names in it that stand for nothing.  After a reference that stops the page nothing more is
reported.

* `Document.events`: the events in their order.
-/

namespace SchemaPage

/-- Some events, and whether the page goes on after them. -/
structure Progress where
  events : List LogEvent
  goesOn : Bool

namespace Progress

/-- One stretch after another, unless the first one ends the page. -/
def andThen (p q : Progress) : Progress :=
  if p.goesOn then ⟨p.events ++ q.events, q.goesOn⟩ else p

/-- Stretches one after the other, up to the first that ends the page. -/
def concat : List Progress → Progress
  | [] => ⟨[], true⟩
  | p :: ps => p.andThen (concat ps)

/-- A reference in the block of a declaration. -/
def ofReference (g : Graph) (d : Declaration) (typeName : String) : Progress :=
  match g.resolve d typeName with
  | .error _ => ⟨[], false⟩
  | .ok none => ⟨[.unresolved typeName d.fullName], true⟩
  | .ok (some _) => ⟨[], true⟩

/-- The block of a declaration. -/
def ofDeclaration (g : Graph) (options : PageOptions) (d : Declaration) : Progress :=
  andThen ⟨[.rendering d.fullName d.path], true⟩
    (concat ((d.references options).map (ofReference g d)))

end Progress

namespace Document

/-- The event for a section. -/
def sectionEvent (s : Section) : LogEvent := .documenting s.kind s.declarations.length

/-- The events while the page of a graph is written. -/
def events (g : Graph) (options : PageOptions) : List LogEvent :=
  let sections := sections g options
  sections.map sectionEvent ++
    (Progress.concat
      ((sections.flatMap (·.declarations)).map (Progress.ofDeclaration g options))).events

end Document

end SchemaPage
