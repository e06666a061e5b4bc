import SchemaPage.Text.Split

/-!
# Paths

A path is a text.  Two paths mean the same place when they have the same parts: repeated slashes
and dots between slashes do not count, while a leading slash, a leading dot and every `..` do.

* `Path.parts`: the parts of a path.
* `Path.join`: one path inside another; `join_of_absolute` and `join_empty` are its corner cases.
* `Path.hasExtension`: the extension of the last part of a path.
-/

namespace SchemaPage

/-- A part of a path. -/
inductive PathPart where
  /-- The slash at the start of an absolute path. -/
  | root
  /-- The dot at the start of a relative path. -/
  | current
  /-- Two dots. -/
  | parent
  | named (name : String)
  deriving DecidableEq, Repr

/-- The written form of a part. -/
def PathPart.text : PathPart → String
  | root => "/"
  | current => "."
  | parent => ".."
  | named name => name

namespace Path

/-- The part that a stretch between slashes stands for, if it stands for any. -/
def part? (stretch : String) : Option PathPart :=
  if stretch = "" ∨ stretch = "." then none
  else if stretch = ".." then some .parent
  else some (.named stretch)

/-- Whether the path starts at the root. -/
def isAbsolute (path : String) : Bool := path.toList.head? == some '/'

/-- The parts of a path. -/
def parts (path : String) : List PathPart :=
  let stretches := Text.split '/' path
  let start : List PathPart :=
    if isAbsolute path then [.root]
    else if stretches.head? = some "." then [.current]
    else []
  start ++ stretches.filterMap part?

@[simp] theorem parts_empty : parts "" = [] := by decide

/-- The parts as a text, with slashes between them. -/
def ofParts (parts : List PathPart) : String := "/".intercalate (parts.map PathPart.text)

@[simp] theorem ofParts_nil : ofParts [] = "" := rfl

/-- The path `path` seen from the directory `dir`.  An absolute path is the same from everywhere. -/
def join (dir path : String) : String :=
  if isAbsolute path then path
  else if dir.toList.getLast?.any (· != '/') then dir ++ "/" ++ path
  else dir ++ path

theorem join_of_absolute {path : String} (h : isAbsolute path = true) (dir : String) :
    join dir path = path := by
  simp [join, h]

@[simp] theorem join_empty (path : String) : join "" path = path := by
  unfold join; split <;> simp

/-- The last part of a path, as it is written. -/
def lastName (path : String) : String := (Text.split '/' path).getLastD ""

/-- Whether the last part of the path is `stem.extension` with a stem that is not empty. -/
def hasExtension (extension path : String) : Bool :=
  let ending := '.' :: extension.toList
  let name := (lastName path).toList
  ending.isSuffixOf name && ending.length < name.length

end Path

end SchemaPage
