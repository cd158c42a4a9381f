import Rebind.Command.Run
/-!
# The program

Reads the files that the command line names from the disk, runs the command on them, and writes what
it wrote.  Everything is decided in `Rebind.Command`.
-/
namespace Rebind.Program

/-- Adds what is on the disk at a path, if there is something that can be read. -/
def withPath (t : FileTree) (path : String) : IO FileTree := do
  let steps := Path.resolve t.working path
  let place := (← IO.currentDir) / path
  if ← place.isDir then return t.addFolder steps
  try return t.addFile steps (Command.contentOf path (← IO.FS.readFile place))
  catch _ => return t

/-- The part of the disk that a command line may lead to. -/
def filesFor (words : List String) : IO FileTree := do
  let working := Path.resolve [] (← IO.currentDir).toString
  let t : FileTree := { working }
  let paths := (Command.pathsNamed working words).flatMap Path.alongTheWay
  paths.foldlM withPath (t.addFolder working)

end Rebind.Program

def main (words : List String) : IO UInt32 := do
  let t ← Rebind.Program.filesFor words
  let input ← if Rebind.Command.mayReadInput words then (← IO.getStdin).readToEnd else pure ""
  let outcome := Rebind.Command.run words input t
  IO.print outcome.stdout
  IO.eprint outcome.complaints
  return outcome.exitCode.toUInt32
