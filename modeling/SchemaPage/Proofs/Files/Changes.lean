import SchemaPage.Proofs.Files.Locate

/-!
# Changes to a file system

A file system changes in two ways: a directory is made, or a file is written.  Either change is made
at one place and leaves what is everywhere else.  Making a directory with all those above it makes
only directories, and one of the given paths leads to each of them, even if the last one cannot be
made.

* `FileSystem.ChangesAt`: a change at one place only.
* `FileSystem.Made`: new directories and nothing else.
* `FileSystem.made_createDirAll`: what making a directory changes.
* `FileSystem.createDirAll_of_isDirectory`: nothing is made where there is a directory already.
* `FileSystem.exists_changesAt_of_write`: what writing a file changes.
-/

namespace SchemaPage
namespace FileSystem

variable {fs fs' fs'' : FileSystem} {path : String} {paths names : List String} {bytes : ByteArray}

/-! ## Changes at one place -/

/-- The same thing is at a place in both file systems, whatever stands below it. -/
def SameAt (fs fs' : FileSystem) (names : List String) : Prop :=
  (fs'.tree.descend names).map FileTree.face = (fs.tree.descend names).map FileTree.face

/-- What was there before is there in its shape, and only one place has changed. -/
structure ChangesAt (fs fs' : FileSystem) (names : List String) : Prop where
  workingDir : fs'.workingDir = fs.workingDir
  grows : fs.tree.Grows fs'.tree
  same : ∀ other ≠ names, SameAt fs fs' other

/-- A directory or a file takes a free place, or a file the place of a file. -/
theorem changesAt_put {new : FileTree} (hfits : fs.tree.Fits names) (hnew : new.entries = [])
    (hold : ∀ old, fs.tree.descend names = some old → old.entries = [] ∧ new.shape = old.shape) :
    ChangesAt fs (fs.put names new) names := by
  have hsame : ∀ other ≠ names, SameAt fs (fs.put names new) other := fun other hne =>
    FileTree.face_descend_put hfits hnew (fun old h => (hold old h).1) hne
  refine ⟨rfl, FileTree.grows_of_face hsame fun old hplace => ?_, hsame⟩
  exact ⟨new, FileTree.descend_put_self new names fs.tree, (hold old hplace).2⟩

/-! ## New directories -/

/-- There is a new directory at the place, and one of the paths leads to it. -/
def NewDirAt (paths : List String) (fs fs' : FileSystem) (names : List String) : Prop :=
  fs.tree.descend names = none ∧ (∃ entries, fs'.tree.descend names = some (.dir entries)) ∧
    ∃ path ∈ paths, fs'.locate path true = .ok (.present names)

/-- There are new directories, to which some paths lead, and nothing else has changed. -/
structure Made (paths : List String) (fs fs' : FileSystem) : Prop where
  workingDir : fs'.workingDir = fs.workingDir
  places : ∀ names, SameAt fs fs' names ∨ NewDirAt paths fs fs' names

namespace Made

theorem refl (paths : List String) (fs : FileSystem) : Made paths fs fs :=
  ⟨rfl, fun _ => Or.inl rfl⟩

theorem mono {more : List String} (h : Made paths fs fs') (hsub : paths ⊆ more) :
    Made more fs fs' := by
  refine ⟨h.workingDir, fun names => (h.places names).imp_right ?_⟩
  rintro ⟨hnone, hdir, path, hpath, hleads⟩
  exact ⟨hnone, hdir, path, hsub hpath, hleads⟩

theorem grows (h : Made paths fs fs') : fs.tree.Grows fs'.tree := by
  intro names old hold
  rcases h.places names with hsame | ⟨hnone, -⟩
  · unfold SameAt at hsame
    rw [hold, Option.map_some] at hsame
    obtain ⟨new, hnew, hface⟩ := Option.map_eq_some_iff.1 hsame
    exact ⟨new, hnew, FileTree.shape_eq_of_face_eq hface⟩
  · exact absurd (hnone.symm.trans hold) nofun

end Made

/-- A change elsewhere keeps a place as it was made. -/
theorem keeps_of_same (h : SameAt fs fs' names ∨ NewDirAt paths fs fs' names)
    (hsame : SameAt fs' fs'' names) (hworking : fs''.workingDir = fs'.workingDir)
    (hgrows : fs'.tree.Grows fs''.tree) :
    SameAt fs fs'' names ∨ NewDirAt paths fs fs'' names := by
  rcases h with h | ⟨hnone, ⟨entries, hdir⟩, path, hpath, hleads⟩
  · exact Or.inl (Eq.trans hsame h)
  · exact Or.inr ⟨hnone, hgrows.dir hdir, path, hpath, locate_of_grows hleads hworking hgrows⟩

theorem Made.trans (h : Made paths fs fs') (h' : Made paths fs' fs'') : Made paths fs fs'' := by
  refine ⟨h'.workingDir.trans h.workingDir, fun names => ?_⟩
  rcases h'.places names with hsame | ⟨hnone, hdir, hleads⟩
  · exact keeps_of_same (h.places names) hsame h'.workingDir h'.grows
  · refine Or.inr ⟨?_, hdir, hleads⟩
    by_contra hthere
    obtain ⟨old, hold⟩ := Option.ne_none_iff_exists'.1 hthere
    obtain ⟨new, hnew, -⟩ := h.grows names old hold
    exact absurd (hnone.symm.trans hnew) nofun

/-! ## Making directories -/

/-- A directory that is made is the only change, and the path leads to it. -/
theorem made_of_createDir (h : fs.createDir path = .ok fs') : Made [path] fs fs' := by
  unfold createDir at h
  split at h
  · cases h
  · rename_i hnul
    split at h
    · cases h
    · rename_i hsize
      split at h
      · rename_i dirNames name hlocate
        obtain rfl := Except.ok.inj h
        obtain ⟨hnameable, hleads⟩ := locate_eq_ok_iff.1 hlocate
        obtain ⟨⟨entries, hdir⟩, hnone⟩ := hleads.free_of_absent
        have hchange : ChangesAt fs (fs.put (dirNames ++ [name]) .empty) (dirNames ++ [name]) :=
          changesAt_put (Or.inr ⟨dirNames, name, entries, rfl, hdir⟩) rfl fun old hold =>
            absurd (hnone.symm.trans hold) nofun
        have hnew := FileTree.descend_put_self .empty (dirNames ++ [name]) fs.tree
        refine ⟨hchange.workingDir, fun other => ?_⟩
        by_cases hother : other = dirNames ++ [name]
        · subst hother
          refine Or.inr ⟨hnone, ⟨[], hnew⟩, path, List.mem_singleton_self path, ?_⟩
          -- slashes at the end of the path stay in the directory that is made
          obtain ⟨count, hsteps⟩ := exists_steps_withoutSlashes hnameable.nonempty
          refine locate_eq_ok_iff.2 ⟨⟨?_, by simpa using hnul, Nat.le_of_not_lt hsize⟩, ?_⟩
          · rintro rfl
            exact hnameable.nonempty rfl
          · rw [hsteps]
            exact hleads.of_put hchange.grows hnew (fun _ => nofun) fun _ =>
              Leads.replicate_stay hnew count
        · exact Or.inl (hchange.same other hother)
      · cases h
      · cases h

theorem made_ensureDir (fs : FileSystem) (path : String) :
    Made [path] fs (fs.ensureDir path).1 := by
  unfold ensureDir
  split
  · rename_i fs' hmake
    exact made_of_createDir hmake
  · split
    · exact Made.refl _ fs
    · exact Made.refl _ fs

theorem made_ensureDirs (fs : FileSystem) (paths : List String) :
    Made paths fs (fs.ensureDirs paths).1 := by
  induction paths generalizing fs with
  | nil => exact Made.refl _ fs
  | cons path outer ih =>
    have hfirst : ∀ fs, Made (path :: outer) fs (ensureDir fs path).1 := fun fs =>
      (made_ensureDir fs path).mono (List.cons_subset_cons path (List.nil_subset outer))
    have houter : ∀ fs, Made (path :: outer) fs (ensureDirs fs outer).1 := fun fs =>
      (ih fs).mono (List.subset_cons_self path outer)
    have hfs := hfirst fs
    unfold ensureDirs
    split
    · rename_i fs' hensure
      rwa [hensure] at hfs
    · rename_i fs' hensure
      rw [hensure] at hfs
      have hnext := hfs.trans (houter fs')
      split
      · rename_i fs'' hrest
        rw [hrest] at hnext
        exact hnext.trans (hfirst fs'')
      · rename_i fs'' e hrest
        rwa [hrest] at hnext
    · rename_i fs' e _ hensure
      rwa [hensure] at hfs

/-- Making a directory makes directories only: the one that its path leads to, and those above
it. -/
theorem made_createDirAll (fs : FileSystem) (path : String) :
    Made (ancestors path) fs (fs.createDirAll path).1 := made_ensureDirs fs (ancestors path)

/-- No directory is made where there is one. -/
theorem ensureDir_of_isDirectory (h : fs.isDirectory path = true) :
    fs.ensureDir path = (fs, none) := by
  unfold ensureDir
  split
  · rename_i fs' hmake
    exfalso
    unfold createDir at hmake
    split_ifs at hmake
    split at hmake
    · rename_i dirNames name hlocate
      obtain ⟨hnameable, hleads⟩ := locate_eq_ok_iff.1 hlocate
      obtain ⟨count, hsteps⟩ := exists_steps_withoutSlashes hnameable.nonempty
      obtain ⟨names, entries, hthere, -⟩ := isDirectory_iff.1 h
      obtain ⟨-, hthere⟩ := locate_eq_ok_iff.1 hthere
      rw [hsteps] at hthere
      exact hleads.not_present_of_absent (locateFrom_of_leads hthere)
    · cases hmake
    · cases hmake
  · rw [if_pos h]

/-- A directory is the innermost one that is made for its path. -/
theorem ancestors_cases (path : String) :
    ancestors path = [] ∨ ∃ outer, ancestors path = path :: outer := by
  unfold ancestors
  simp only
  split
  · exact Or.inl rfl
  · exact Or.inr ⟨_, rfl⟩

theorem createDirAll_of_isDirectory (h : fs.isDirectory path = true) :
    fs.createDirAll path = (fs, none) := by
  unfold createDirAll
  obtain hnil | ⟨outer, hcons⟩ := ancestors_cases path
  · rw [hnil]
    rfl
  · rw [hcons]
    unfold ensureDirs
    rw [ensureDir_of_isDirectory h]

/-! ## Writing a file -/

/-- A file that is written is the only change, and the path leads to it. -/
theorem exists_changesAt_of_write (h : fs.write path bytes = .ok fs') :
    ∃ names, ChangesAt fs fs' names ∧ fs'.locate path true = .ok (.present names) ∧
      fs'.tree.descend names = some (.file bytes) := by
  unfold write at h
  split at h
  · rename_i dirNames name hlocate
    obtain rfl := Except.ok.inj h
    obtain ⟨hnameable, hleads⟩ := locate_eq_ok_iff.1 hlocate
    obtain ⟨⟨entries, hdir⟩, hnone⟩ := hleads.free_of_absent
    have hchange : ChangesAt fs (fs.put (dirNames ++ [name]) (.file bytes)) (dirNames ++ [name]) :=
      changesAt_put (Or.inr ⟨dirNames, name, entries, rfl, hdir⟩) rfl fun old hold =>
        absurd (hnone.symm.trans hold) nofun
    have hnew := FileTree.descend_put_self (.file bytes) (dirNames ++ [name]) fs.tree
    refine ⟨dirNames ++ [name], hchange, locate_eq_ok_iff.2 ⟨hnameable, ?_⟩, hnew⟩
    have hput := hleads.of_put hchange.grows hnew (fun _ => nofun) fun _ => .here
    rwa [List.append_nil] at hput
  · rename_i names hlocate
    split at h
    · rename_i old hold
      obtain rfl := Except.ok.inj h
      have hchange : ChangesAt fs (fs.put names (.file bytes)) names := by
        refine changesAt_put (FileTree.fits_of_descend hold) rfl fun thing hthing => ?_
        obtain rfl := Option.some_inj.1 (hold.symm.trans hthing)
        exact ⟨rfl, rfl⟩
      exact ⟨names, hchange, locate_of_grows hlocate hchange.workingDir hchange.grows,
        FileTree.descend_put_self (.file bytes) names fs.tree⟩
    · cases h
  · cases h

/-- A file can be written in the place of another one, and where a name is free. -/
theorem exists_write (bytes : ByteArray) (h : fs.isFile path = true ∨
    ∃ dirNames name, fs.locate path true = .ok (.absent dirNames name)) :
    ∃ fs', fs.write path bytes = .ok fs' := by
  unfold write
  rcases h with hfile | ⟨dirNames, name, hlocate⟩
  · obtain ⟨names, old, hlocate, hold⟩ := isFile_iff.1 hfile
    simp only [hlocate, hold]
    exact ⟨_, rfl⟩
  · rw [hlocate]
    exact ⟨_, rfl⟩

end FileSystem
end SchemaPage
