import SchemaPage.Source.Library

/-!
# The import closure

The files that some names lead to: those with these names, then those that they import, then those
that these import, and so on, breadth first.  A name that is found nowhere is noted and skipped.

* `Closure.gather`: the closure of a list of names.
* `Closure`: what was found and what was not.
-/

namespace SchemaPage

open Proto

/-- The files that some names lead to. -/
structure Closure where
  /-- The files, in the order in which they were found. -/
  files : List FileDescriptor
  /-- The names that were found nowhere, in the order in which they were looked for. -/
  missing : List String

namespace Closure

/-- The end of a search at something broken. -/
structure Broken where
  name : String
  fault : Fault
  /-- What was found and missed before. -/
  before : Closure

/-- Nothing. -/
def empty : Closure := ⟨[], []⟩

/-- The names of a list that are not among others, each once. -/
def unseen (seen : List String) : List String → List String
  | [] => []
  | name :: names =>
    if seen.contains name then unseen seen names else name :: unseen (name :: seen) names

/-- Go on with the names that are still to be looked for; all names met so far are `seen`.  Where a
name leads to something broken the search ends, with that name, with what is wrong there and with
what was missing before.  The fuel bounds the number of names. -/
def gatherFrom (library : Library) :
    (fuel : Nat) → (seen pending : List String) → Closure → Except Broken Closure
  | _, _, [], c => .ok c
  | 0, _, _ :: _, c => .ok c
  | fuel + 1, seen, name :: pending, c =>
    match library name with
    | .missing => gatherFrom library fuel seen pending { c with missing := c.missing ++ [name] }
    | .broken fault => .error ⟨name, fault, c⟩
    | .found _ f =>
      let new := unseen seen (f.dependencies.map (·.path))
      gatherFrom library fuel (seen ++ new) (pending ++ new) { c with files := c.files ++ [f] }

/-- The closure of some names.  All names that can be met are among them or among `imports`. -/
def gather (library : Library) (imports names : List String) :
    Except Broken Closure :=
  gatherFrom library (names.length + imports.length) names names empty

end Closure

end SchemaPage
