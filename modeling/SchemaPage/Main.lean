import SchemaPage.Disk
import SchemaPage.Program

/-!
# The command line program

Runs the program on the words of the command line, the variables of the environment and the files
on the disk.
-/

namespace SchemaPage

/-- The variables that count. -/
def environment : IO Environment := do
  let values ← Environment.names.mapM fun name => do return (name, ← IO.getEnv name)
  return .ofVariables fun name => (values.lookup name).join

/-- The files that the words make the program read. -/
def filesFor (words : List String) : IO FileSystem :=
  match Command.parse words with
  | .ok command => Disk.pictureFor command
  | .error _ => return { tree := .empty, workingDir := [] }

/-- Run the program on the real files and return the exit status. -/
def start (words : List String) : IO UInt32 := do
  let env ← environment
  let before ← filesFor words
  let report := Program.run env words before
  Disk.make (FileTree.changes [] (some before.tree) report.files.tree)
  IO.print report.output
  (report.remarks env).forM fun line => IO.eprintln line
  return report.exitStatus.toUInt32

end SchemaPage

def main (words : List String) : IO UInt32 := SchemaPage.start words
