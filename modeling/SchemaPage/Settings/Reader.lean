import SchemaPage.Files.System
import SchemaPage.Settings
import SchemaPage.Toml.Document

/-!
# Reading settings

Settings are kept in a TOML file.  Every key is optional, and no other key is allowed.

* `Settings.ofTable?`: the settings in a table.
* `Settings.load`: the settings in a file, with `SettingsError` when there are none.
-/

namespace SchemaPage

open Toml

/-- Why settings are not loaded. -/
inductive SettingsError where
  /-- The file is missing or holds no text. -/
  | unreadable (path : String) (cause : String)
  /-- The text does not describe settings. -/
  | malformed (path : String)
  deriving DecidableEq, Repr

namespace SettingsError

/-- The report of the error. -/
def message : SettingsError → String
  | unreadable path _ => "Failed to read config: " ++ path
  | malformed path => "Failed to parse config: " ++ path

/-- What lies behind the error. -/
def cause : SettingsError → String
  | unreadable _ cause => cause
  | malformed _ => "TOML parse error"

end SettingsError

namespace Settings

/-- The settings with another value for one key. -/
def set? (s : Settings) (key : String) (value : Value) : Option Settings :=
  match key with
  | "inc_paths" => value.texts?.map fun paths => { s with incPaths := paths }
  | "proto_paths" => value.texts?.map fun paths => { s with protoPaths := paths }
  | "output_path" => value.text?.map fun path => { s with outputPath := some path }
  | "title" => value.text?.map fun title => { s with title := some title }
  | "ignore_missing_imports" =>
    value.boolean?.map fun ignore => { s with ignoreMissingImports := ignore }
  | "field_order" =>
    (value.word?.bind FieldOrder.ofWord?).map fun order => { s with fieldOrder := some order }
  | "method_order" =>
    (value.word?.bind MethodOrder.ofWord?).map fun order => { s with methodOrder := some order }
  | "files" => value.texts?.map fun files => { s with files }
  | _ => none

/-- The settings in a table. -/
def ofTable? (entries : List (String × Value)) : Option Settings :=
  entries.foldlM (fun s (key, value) => s.set? key value) {}

/-- The settings that a text describes. -/
def parse? (text : String) : Option Settings := (Toml.parse? text).bind ofTable?

/-- The settings in the file at `path`. -/
def load (fs : FileSystem) (path : String) : Except SettingsError Settings :=
  match fs.read path with
  | .error e => .error (.unreadable path e.message)
  | .ok bytes =>
    match String.fromUTF8? bytes with
    | none => .error (.unreadable path "stream did not contain valid UTF-8")
    | some text =>
      match parse? text with
      | none => .error (.malformed path)
      | some s => .ok s

end Settings

end SchemaPage
