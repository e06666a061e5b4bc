import SchemaPage.Proofs.Files.Changes
import SchemaPage.Proofs.Page.Limited
import SchemaPage.Proofs.Source.Rendered
import SchemaPage.Run

/-!
# What a run leaves

A run that writes a page loads the graph first.  If there is none, nothing has changed.  If there is
one, the output directory is made, and then the page takes the place of whatever was there: all of
it, or what comes before the first type name that stands for nothing.  Nothing else changes then,
but for directories that are new.

* `LeftPage`: a file with the page, and everything else as it was.
* `Settings.WritesPage`: what a run leaves when it gets to the page, and how it ends.
* `Settings.generate_leaves_page`: when a run gets to the page, and what it leaves when it does not.
-/

namespace SchemaPage

open FileSystem

/-- A page is what can be read in an output directory, at the place `index`.  If there was no link
there, this is the place of the page in the directory itself, to which the dot in it leads.
Everywhere else there is what was there, but for new directories: the output directory and those
above it. -/
structure LeftPage (fs fs' : FileSystem) (dir : String) (bytes : ByteArray) (index : List String) :
    Prop where
  workingDir : fs'.workingDir = fs.workingDir
  read : fs'.read (indexPath dir) = .ok bytes
  leads : fs'.locate (indexPath dir) true = .ok (.present index)
  inside : ∃ dirNames, fs'.locate (Path.join dir ".") true = .ok (.present dirNames) ∧
    ((∀ target, fs.tree.descend (dirNames ++ [indexName]) ≠ some (.link target)) →
      index = dirNames ++ [indexName])
  others : ∀ names ≠ index, SameAt fs fs' names ∨ NewDirAt (ancestors dir) fs fs' names

namespace Settings

/-- A run leaves what is written of the page of a graph, and it ends as the page ends: well, or at a
type name that stands for nothing. -/
structure WritesPage (s : Settings) (g : Graph) (dir : String) (fs : FileSystem) (o : Outcome) :
    Prop where
  left : ∃ index,
    LeftPage fs o.files dir (Document.generate g s.pageOptions .unlimited).1.taken index
  result : o.result =
    (Document.generate g s.pageOptions .unlimited).2.mapError (.generate (indexPath dir))
  lookup : ∀ e, (Document.generate g s.pageOptions .unlimited).2 = .error e →
    ∃ cause, e = .resolve cause

variable {s : Settings} {g : Graph} {dir : String} {fs fs' fs'' : FileSystem} {bytes : ByteArray}

/-- A page that is written after directories were made. -/
theorem exists_leftPage_of_write (hmade : Made (ancestors dir) fs fs')
    (h : fs'.write (indexPath dir) bytes = .ok fs'') :
    ∃ index, LeftPage fs fs'' dir bytes index := by
  obtain ⟨index, hchange, hleads, hfile⟩ := exists_changesAt_of_write h
  have hothers : ∀ names ≠ index, SameAt fs fs'' names ∨ NewDirAt (ancestors dir) fs fs'' names :=
    fun names hne =>
      keeps_of_same (hmade.places names) (hchange.same names hne) hchange.workingDir hchange.grows
  have hslash : '/' ∉ indexName.toList := by decide
  obtain ⟨dirNames, hdir, hindex⟩ := exists_locate_join_dot hleads hslash (by decide)
  refine ⟨index, hchange.workingDir.trans hmade.workingDir, read_of_locate hleads hfile, hleads,
    ⟨dirNames, hdir, fun hnot => hindex fun target hlink => hnot target ?_⟩, hothers⟩
  -- No link is new, so what is one now was one before.
  have hne : dirNames ++ [indexName] ≠ index := fun heq => by
    rw [heq, hfile] at hlink
    cases hlink
  rcases hothers _ hne with hsame | ⟨-, ⟨entries, hnew⟩, -⟩
  · unfold SameAt at hsame
    rw [hlink, Option.map_some] at hsame
    obtain ⟨old, hold, hface⟩ := Option.map_eq_some_iff.1 hsame.symm
    rw [hold, FileTree.eq_link_of_face_eq hface]
  · rw [hlink] at hnew
    cases hnew

/-- The page of a graph in a sink that takes everything ends well or at a type name. -/
theorem exists_cause_of_generate {e : RenderError}
    (h : (Document.generate g s.pageOptions .unlimited).2 = .error e) :
    ∃ cause, e = .resolve cause := by
  rw [Document.generate_unlimited] at h
  unfold Draft.ending at h
  cases hfailure : (Document.draft g s.pageOptions).failure with
  | none =>
    rw [hfailure] at h
    cases h
  | some cause =>
    rw [hfailure] at h
    exact ⟨cause, (Except.error.inj h).symm⟩

/-- What is left where the page of a graph is to be written. -/
theorem writePage_cases (s : Settings) (g : Graph) (dir : String) (fs : FileSystem)
    (events : List LogEvent) :
    WritesPage s g dir fs (s.writePage g dir fs events) ∨
      (∃ e, (s.writePage g dir fs events).result = .error (.createDir dir e) ∨
        (s.writePage g dir fs events).result = .error (.createFile (indexPath dir) e)) ∧
      Made (ancestors dir) fs (s.writePage g dir fs events).files := by
  have hmade := made_createDirAll fs dir
  unfold writePage
  rcases hdirs : fs.createDirAll dir with ⟨fs', _ | e⟩
  · rw [hdirs] at hmade
    simp only
    cases hwrite : fs'.write (indexPath dir)
      (Document.generate g s.pageOptions .unlimited).1.taken with
    | error e => exact Or.inr ⟨⟨e, Or.inr rfl⟩, hmade⟩
    | ok fs'' =>
      have hleft := exists_leftPage_of_write hmade hwrite
      have hlookup : ∀ e, (Document.generate g s.pageOptions .unlimited).2 = .error e →
          ∃ cause, e = .resolve cause := fun e => exists_cause_of_generate
      refine Or.inl ?_
      cases hpage : (Document.generate g s.pageOptions .unlimited).2 with
      | error e => exact ⟨hleft, by rw [hpage]; rfl, hlookup⟩
      | ok => exact ⟨hleft, by rw [hpage]; rfl, hlookup⟩
  · rw [hdirs] at hmade
    exact Or.inr ⟨⟨e, Or.inl rfl⟩, hmade⟩

/-- Nothing stops a page before it starts in a directory that is there, with a file or nothing in
its place. -/
theorem not_stopped_of_isDirectory (s : Settings) (g : Graph) (events : List LogEvent)
    (hdir : fs.isDirectory dir = true)
    (hindex : fs.isFile (indexPath dir) = true ∨
      ∃ dirNames name, fs.locate (indexPath dir) true = .ok (.absent dirNames name))
    (e : FileError) :
    (s.writePage g dir fs events).result ≠ .error (.createDir dir e) ∧
      (s.writePage g dir fs events).result ≠ .error (.createFile (indexPath dir) e) := by
  unfold writePage
  rw [createDirAll_of_isDirectory hdir]
  simp only
  obtain ⟨fs', hwrite⟩ := exists_write (Document.generate g s.pageOptions .unlimited).1.taken hindex
  rw [hwrite]
  cases (Document.generate g s.pageOptions .unlimited).2 with
  | error e => exact ⟨nofun, nofun⟩
  | ok => exact ⟨nofun, nofun⟩

/-- A run without an output directory or without a graph fails and changes nothing.  A run with both
leaves the page of the graph, or it fails before the page and makes directories at most: the output
directory and those above it.  In a directory that is there, with a file or nothing in the place of
the page, it leaves the page. -/
theorem generate_leaves_page (s : Settings) (fs : FileSystem) :
    (s.outputPath = none ∨ (∃ root ∈ s.sources.roots, fs.isDirectory root.dir = false) ∨
        (∃ e, (Graph.load fs s.sources).value = .error e) →
      (∃ e, (s.generate fs).result = .error e) ∧ (s.generate fs).files = fs) ∧
    ∀ dir g, s.outputPath = some dir → (Graph.load fs s.sources).value = .ok g →
      (WritesPage s g dir fs (s.generate fs) ∨
        (∃ e, (s.generate fs).result = .error (.createDir dir e) ∨
          (s.generate fs).result = .error (.createFile (indexPath dir) e)) ∧
        Made (ancestors dir) fs (s.generate fs).files) ∧
      (fs.isDirectory dir = true →
        (fs.isFile (indexPath dir) = true ∨
          ∃ dirNames name, fs.locate (indexPath dir) true = .ok (.absent dirNames name)) →
        WritesPage s g dir fs (s.generate fs)) := by
  constructor
  · intro h
    unfold generate
    cases hpath : s.outputPath with
    | none => exact ⟨⟨_, rfl⟩, rfl⟩
    | some dir =>
      simp only
      cases hload : (Graph.load fs s.sources).value with
      | error e => exact ⟨⟨_, rfl⟩, rfl⟩
      | ok g =>
        exfalso
        rcases h with hnone | ⟨root, hroot, hno⟩ | ⟨e, he⟩
        · exact absurd (hpath.symm.trans hnone) nofun
        · have hdirs := (Graph.load_eq_ok_iff.1 hload).1 root hroot
          exact absurd (hno.symm.trans hdirs) Bool.false_ne_true
        · exact absurd (hload.symm.trans he) nofun
  · intro dir g hpath hload
    have hgenerate : s.generate fs = s.writePage g dir fs (Graph.load fs s.sources).events := by
      unfold generate
      rw [hpath]
      simp only [hload]
    rw [hgenerate]
    have hcases := writePage_cases s g dir fs (Graph.load fs s.sources).events
    refine ⟨hcases, fun hdir hindex => hcases.resolve_right ?_⟩
    rintro ⟨⟨e, hstop⟩, -⟩
    obtain ⟨hnotDir, hnotFile⟩ :=
      not_stopped_of_isDirectory s g (Graph.load fs s.sources).events hdir hindex e
    exact hstop.elim hnotDir hnotFile

/-- The files of `entryTree`, beside an older page. -/
def oldPageTree : FileSystem :=
  let out := ("out", FileTree.dir [(indexName, .file "old".toUTF8)])
  { entryTree with tree := .dir (entryTree.tree.entries ++ [out]) }

/-- Settings for a page about the working directory, where no import may be missing. -/
def strictSettings : Settings :=
  { protoPaths := ["."], outputPath := some "out", ignoreMissingImports := false }

/-- A page that stops at a type name takes the place of an older page, which is kept when there is
no graph. -/
theorem generate_oldPageTree :
    (({ strictSettings with protoPaths := ["none"] } : Settings).generate oldPageTree).files =
        oldPageTree ∧
      ∃ g, strictSettings.outputPath = some "out" ∧
        (Graph.load oldPageTree strictSettings.sources).value = .ok g ∧
        oldPageTree.isDirectory "out" = true ∧ oldPageTree.isFile (indexPath "out") = true ∧
        (Document.generate g strictSettings.pageOptions .unlimited).2 ≠ .ok () ∧
        WritesPage strictSettings g "out" oldPageTree (strictSettings.generate oldPageTree) := by
  have hmissing :
      ∃ root ∈ ({ strictSettings with protoPaths := ["none"] } : Settings).sources.roots,
        oldPageTree.isDirectory root.dir = false := by
    decide +kernel
  have hload : (Graph.load oldPageTree strictSettings.sources).value.toOption.any (fun g =>
      (Document.draft g strictSettings.pageOptions).failure.isSome) = true := by
    decide +kernel
  obtain ⟨g, hload, hfails⟩ := Outcome.exists_ok_of_any hload
  have hdir : oldPageTree.isDirectory "out" = true := by decide +kernel
  have hfile : oldPageTree.isFile (indexPath "out") = true := by decide +kernel
  refine ⟨((generate_leaves_page _ oldPageTree).1 (Or.inr (Or.inl hmissing))).2,
    g, rfl, hload, hdir, hfile, fun hok => ?_,
    ((generate_leaves_page strictSettings oldPageTree).2 "out" g rfl hload).2 hdir (Or.inl hfile)⟩
  rw [(Document.generate_eq_ok_iff rfl rfl).1 hok] at hfails
  exact Bool.false_ne_true hfails

end Settings
end SchemaPage
