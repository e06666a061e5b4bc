import SchemaPage.Page.Options
import SchemaPage.Source.OwnedRoot

/-!
# Settings

What a run is asked to do: where schemas are found, where the page goes and how it looks.
Settings come from a file, and values given for one run are laid over them.

* `Settings.merge`: lay `Overrides` over settings.
* `Settings.sources`: the directories to load from.
* `Settings.pageOptions`: the look of the page.
-/

namespace SchemaPage

/-- The directories that schemas are loaded from. -/
structure Sources where
  /-- The directories that are searched for imports only. -/
  includes : List String
  /-- The directories whose files are documented. -/
  roots : List OwnedRoot
  /-- Whether an import that is found nowhere is skipped. -/
  skipMissing : Bool
  deriving DecidableEq, Repr

/-- What a run is asked to do. -/
structure Settings where
  incPaths : List String := []
  /-- The owned roots as they are written. -/
  protoPaths : List String := []
  outputPath : Option String := none
  title : Option String := none
  ignoreMissingImports : Bool := true
  fieldOrder : Option FieldOrder := none
  methodOrder : Option MethodOrder := none
  /-- When there are any, the page is about the files with these logical names only. -/
  files : List String := []
  deriving DecidableEq, Repr

/-- Values given for one run. -/
structure Overrides where
  incPaths : List String := []
  protoPaths : List String := []
  outputPath : Option String := none
  title : Option String := none
  strictImports : Bool := false
  fieldOrder : Option FieldOrder := none
  methodOrder : Option MethodOrder := none
  files : List String := []
  deriving DecidableEq, Repr

namespace Settings

/-- Lay values over settings: lists are put after those of the settings, other values take their
place. -/
def merge (s : Settings) (o : Overrides) : Settings :=
  { incPaths := s.incPaths ++ o.incPaths
    protoPaths := s.protoPaths ++ o.protoPaths
    outputPath := o.outputPath.or s.outputPath
    title := o.title.or s.title
    ignoreMissingImports := s.ignoreMissingImports && !o.strictImports
    fieldOrder := o.fieldOrder.or s.fieldOrder
    methodOrder := o.methodOrder.or s.methodOrder
    files := s.files ++ o.files }

/-- Nothing laid over settings leaves them as they are. -/
@[simp] theorem merge_default (s : Settings) : s.merge {} = s := by
  simp [merge]

/-- The directories to load from.  Blank entries do not count. -/
def sources (s : Settings) : Sources :=
  { includes := s.incPaths.filter (!Text.isBlank ·)
    roots := (s.protoPaths.map fun spec => OwnedRoot.parse (Text.trim spec)).filter (·.dir != "")
    skipMissing := s.ignoreMissingImports }

/-- The look of the page. -/
def pageOptions (s : Settings) : PageOptions :=
  { title := s.title.getD ({} : PageOptions).title
    fieldOrder := s.fieldOrder.getD .source
    methodOrder := s.methodOrder.getD .source
    paths := s.files }

end Settings

end SchemaPage
