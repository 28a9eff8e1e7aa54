/-
# The program

`main` runs the tool on the disk.  `Disk.load` brings what the arguments name into a file system;
the tool runs on that; and `Disk.replace` puts a store that has changed back, in one step, so that
whoever reads the store sees the old one or the new one.
-/
import ConstStore.FileSystem.Edit
import ConstStore.Tool.Run

namespace ConstStore
namespace Disk

/-! ## 1. From the disk -/

/-- The paths that a command names: its store, and the file that holds a value. -/
def paths : Tool.Command → List String
  | .info store _ | .keys store | .get store _ => [store]
  | .put store _ file _ _ => store :: file.toList

/-- The paths of the directories above a path, from the top, and the path itself. -/
def stages (path : String) : List String :=
  let parts := Path.components path
  (List.range parts.length).map fun n => Path.ofComponents (parts.take (n + 1))

/-- The file system with what is at a path on the disk.  What cannot be opened is left out. -/
def loadStage (fs : FileSystem) (path : String) : IO FileSystem := do
  let changed := match ← (IO.FS.readBinFile path).toBaseIO with
    | .ok content => fs.save path content.data.toList (.at 0)
    | .error (.noFileOrDirectory ..) => .ok fs
    | .error _ => fs.makeDirectory path
  return changed.toOption.getD fs

/-- A file system that holds what is at these paths on the disk. -/
def load (paths : List String) : IO FileSystem :=
  (paths.flatMap stages).foldlM loadStage .empty

/-- What `put` reads when it names no file. -/
def readInput : Tool.Command → IO Bytes
  | .put _ _ none _ _ => return (← IO.FS.readBinFile "/dev/stdin").data.toList
  | _ => return []

/-! ## 2. To the disk -/

/-- The access rights that permission bits stand for. -/
def rights (permissions : Nat) : IO.FileRight :=
  let party := fun n =>
    ⟨permissions.testBit (n + 2), permissions.testBit (n + 1), permissions.testBit n⟩
  ⟨party 6, party 3, party 0⟩

/-- Puts a file with these bytes in the place of what is at a path. -/
def replace (path : String) (content : Bytes) (permissions : Nat) : IO Unit := do
  let name := SessionConfig.default.temporaryPrefix ++ toString (← IO.monoNanosNow)
  let temporary := Path.child (Path.directory path) name
  try
    let handle ← IO.FS.Handle.mk temporary .writeNew
    handle.write ⟨content.toArray⟩
    handle.flush
    IO.setAccessRights temporary (rights permissions)
    IO.FS.rename temporary path
  catch problem =>
    let _ ← (IO.FS.removeFile temporary).toBaseIO
    throw problem

/-- Puts the file at a path back if it is another one than before. -/
def store (before after : FileSystem) (path : String) : IO Unit := do
  match after.load path, after.permissions? path with
  | .ok content, .ok permissions =>
    if (before.load path).toOption ≠ some content then
      replace path content (permissions.getD FileSystem.defaultPermissions)
  | _, _ => return ()

/-! ## 3. The program -/

/-- Runs the tool on the disk and returns its exit code. -/
def run (arguments : List String) : IO UInt32 := do
  let (paths, input) ← match Tool.Request.parse arguments with
    | .run command => pure (paths command, ← readInput command)
    | _ => pure ([], [])
  let files ← load paths
  let result := Tool.run files arguments input
  paths.forM (store files result.files)
  (← IO.getStdout).write ⟨result.output.toArray⟩
  (← IO.getStderr).putStr result.errors
  return result.code

end Disk
end ConstStore

/-- Runs the tool with the arguments of the program. -/
def main (arguments : List String) : IO UInt32 := ConstStore.Disk.run arguments
