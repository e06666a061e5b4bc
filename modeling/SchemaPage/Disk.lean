import SchemaPage.Run

/-!
# The disk

A run works on a picture of the files on the disk, and the changes to the picture are made on the
disk afterwards.  The picture holds every file at its real place, and every link with the real path
that it leads to.

* `Disk.pictureFor`: a picture with everything that a command can read.
* `Disk.make`: make changes on the disk.
-/

namespace SchemaPage
namespace Disk

/-! ## Places -/

/-- The names that lead from the top to a real path. -/
def namesOf (path : String) : List String := (Text.split '/' path).filter (· != "")

/-- The real path of a place. -/
def pathOf (names : List String) : String := "/" ++ "/".intercalate names

/-- The entry at a place. -/
def entryAt (names : List String) : IO.FS.DirEntry :=
  match names.reverse with
  | [] => ⟨"", ""⟩
  | name :: outer => ⟨pathOf outer.reverse, name⟩

/-- What kind of thing an entry is, if it is there. -/
def typeOf? (entry : IO.FS.DirEntry) : IO (Option IO.FS.FileType) := do
  try
    return some (← entry.path.symlinkMetadata).type
  catch _ => return none

/-- The real path that a link leads to; empty if it leads nowhere. -/
def targetOf (entry : IO.FS.DirEntry) : IO String := do
  try
    return (← IO.FS.realPath entry.path).toString
  catch _ => return ""

/-! ## Pictures -/

/-- A picture that is being made. -/
structure Sketch where
  tree : FileTree
  /-- The places that are in the picture with all that is below them. -/
  complete : List (List String)

/-- What is at an entry and below it, with the targets of the links there.  What cannot be read is
left out. -/
partial def take (entry : IO.FS.DirEntry) : IO (Option FileTree × List String) := do
  try
    match ← typeOf? entry with
    | some .file => return (some (.file (← IO.FS.readBinFile entry.path)), [])
    | some .symlink =>
      let target ← targetOf entry
      return (some (.link target), [target])
    | some .dir =>
      let mut entries := []
      let mut targets := []
      for inner in (← entry.path.readDir) do
        let (tree?, more) ← take inner
        targets := more ++ targets
        if let some tree := tree? then
          entries := (inner.fileName, tree) :: entries
      return (some (.dir (entries.mergeSort fun a b => a.1 ≤ b.1)), targets)
    | _ => return (none, [])
  catch _ => return (none, [])

/-- Put something into the picture where there is nothing yet. -/
def keep (names : List String) (t : FileTree) : StateT Sketch IO Unit :=
  modify fun s =>
    if (s.tree.descend names).isSome then s else { s with tree := t.put names s.tree }

mutual

/-- Put all that some steps lead past into the picture, and what they lead to; a directory there is
put in with all that is below it if `whole` is set. -/
partial def follow (whole : Bool) (names : List String) :
    List FileSystem.Step → StateT Sketch IO Unit
  | [] => if whole then complete names else pure ()
  | .top :: rest => follow whole [] rest
  | .stay :: rest => follow whole names rest
  | .up :: rest => follow whole names.dropLast rest
  | .down name :: rest => do
    let below := names ++ [name]
    let entry := entryAt below
    match ← typeOf? entry with
    | some .dir =>
      keep below .empty
      follow whole below rest
    | some .symlink =>
      let target ← targetOf entry
      keep below (.link target)
      if target != "" then follow whole [] (FileSystem.steps target ++ rest)
    | some .file => if let (some t, _) ← take entry then keep below t
    | _ => pure ()

/-- Put a directory into the picture with all that is below it and all that links there lead to. -/
partial def complete (names : List String) : StateT Sketch IO Unit := do
  unless (← get).complete.contains names do
    let (tree?, targets) ← take (entryAt names)
    modify fun s =>
      { tree := tree?.elim s.tree (·.put names s.tree), complete := names :: s.complete }
    for target in targets do
      if target != "" then follow true [] (FileSystem.steps target)

end

/-- A picture of what is at and below some paths, and of what is at some others. -/
def picture (whole single : List String) : IO FileSystem := do
  let workingDir := namesOf (← IO.FS.realPath (← IO.currentDir)).toString
  let look : StateT Sketch IO Unit := do
    follow false [] (workingDir.map .down)
    for path in whole do follow true workingDir (FileSystem.steps path)
    for path in single do follow false workingDir (FileSystem.steps path)
  let (_, sketch) ← look.run ⟨.empty, []⟩
  return { tree := sketch.tree, workingDir }

/-- A picture with everything that a command can read. -/
def pictureFor (command : Command) : IO FileSystem := do
  let settled := command.configPath.toList
  let fs ← picture [] settled
  match command.settings fs with
  | .error _ => return fs
  | .ok s => picture s.inputPaths (settled ++ s.outputPath.toList.map indexPath)

/-! ## Changes -/

/-- Make changes on the disk. -/
def make (changes : List FileTree.Change) : IO Unit :=
  changes.forM fun
    | .makeDir names => IO.FS.createDir (pathOf names)
    | .writeFile names bytes => IO.FS.writeBinFile (pathOf names) bytes

end Disk
end SchemaPage
