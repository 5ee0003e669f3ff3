import RouterCalldata.Command.Program

/-!
# The executable

Reads the files a run may look at, runs the program on them and writes what it
says.

## Main definitions

* `loadTree`: the tree at a path of the file system;
* `secondsText`: how long something took;
* `main`: the entry point.
-/

namespace RouterCalldata

/-- The tree at a directory entry of the file system. -/
partial def loadTree (entry : IO.FS.DirEntry) : IO FileTree := do
  if ← entry.path.isDir then
    let children ← entry.path.readDir
    let entries ← children.toList.mapM fun child => do
      return (child.fileName, ← loadTree child)
    return .directory entries
  else
    return .file (← IO.FS.readBinFile entry.path).toList

/-- What is found at a path of the file system. -/
def loadPath (path : String) : IO (Except FileError FileTree) := do
  try
    return .ok (← loadTree { root := ".", fileName := path })
  catch _ =>
    return .error .missing

/-- A number of milliseconds in seconds, with three places. -/
def secondsText (ms : Nat) : String :=
  s!"{ms / 1000}.{ms / 100 % 10}{ms / 10 % 10}{ms % 10}"

end RouterCalldata

open RouterCalldata in
/-- The entry point.  The time that is told runs until the records are written. -/
def main (args : List String) : IO UInt32 := do
  let paths := match Invocation.ofArgs args with
    | .ok i => i.paths
    | .error _ => []
  let found ← paths.mapM fun path => do return (path, ← loadPath path)
  let start ← IO.monoMsNow
  let outcome := Program.run (fun path => (found.lookup path).getD (.error .missing)) args
  IO.print outcome.stdout
  let stop ← IO.monoMsNow
  IO.eprint (outcome.stderrAfter (secondsText (stop - start)))
  return outcome.exitCode.toUInt32
