/-
# What other programs do to files

The operations here are those by which programs that know nothing of stores write, alter, move
and remove files.  Alterations of a file in place keep its node and so are seen by whoever has it
open; `FileSystem.replaceFile` puts a new file in the old one's place.
-/
import ConstStore.FileSystem.Basic

namespace ConstStore

/-- What time of modification a change leaves behind. -/
inductive Stamp where
  | at (time : Time)
  /-- The time that the file had before. -/
  | keep
  deriving Repr, DecidableEq

/-- The time that a stamp means for a file of this time. -/
def Stamp.apply (stamp : Stamp) (before : Time) : Time :=
  match stamp with
  | .at time => time
  | .keep => before

namespace Edit

/-! ## 1. Altering bytes -/

/-- A position in a file of the given length; a negative one counts from the end. -/
def position (length : Nat) (n : Int) : Nat :=
  if n < 0 then (length + n).toNat else n.toNat

/-- The bytes cut to a length, or filled up with zeros. -/
def resize (n : Int) (content : Bytes) : Bytes :=
  let length := position content.length n
  content.take length ++ List.replicate (length - content.length) 0

/-- The bytes with others written over them, none of which may stand behind the end. -/
def overwrite (offset : Int) (bytes content : Bytes) : Option Bytes :=
  let start := position content.length offset
  if start + bytes.length ≤ content.length then
    some (content.take start ++ bytes ++ content.drop (start + bytes.length))
  else none

/-- The bytes with some bits of one of them turned. -/
def flip (offset : Int) (mask : UInt8) (content : Bytes) : Option Bytes :=
  let start := position content.length offset
  match content[start]? with
  | some b => some (content.set start (b ^^^ mask))
  | none => none

end Edit

namespace FileSystem

/-- The permissions of a file that is written for the first time. -/
def defaultPermissions : Nat := 0o644

/-! ## 2. Writing files -/

/-- Writes a whole file, in place where there is one. -/
def save (fs : FileSystem) (path : String) (content : Bytes) (stamp : Stamp) :
    Except IoError FileSystem := do
  match ← fs.target path with
  | .node id =>
    let _ ← fs.contentOf id
    return fs.updateFile id fun file =>
      { file with content, modified := stamp.apply file.modified }
  | .free directory name =>
    let (fs, id) := fs.addNode (.file ⟨content, defaultPermissions, stamp.apply fs.now⟩)
    return fs.setName directory name id

/-- Alters a file in place. -/
def editFile (fs : FileSystem) (path : String) (edit : Bytes → Option Bytes) (stamp : Stamp) :
    Except IoError FileSystem := do
  let id ← fs.follow path
  let content ← fs.contentOf id
  match edit content with
  | none => throw (.other "position outside the file")
  | some content =>
    return fs.updateFile id fun file =>
      { file with content, modified := stamp.apply file.modified }

/-- Puts a new file in the place of what has this name; without bytes, one that holds the same. -/
def replaceFile (fs : FileSystem) (path : String) (content : Option Bytes) (stamp : Stamp) :
    Except IoError FileSystem := do
  let old := fs.follow path
  let modified ← match stamp with
    | .at time => pure time
    | .keep => (fs.identityOf · |>.modified) <$> old
  let content ← match content with
    | some content => pure content
    | none => fs.contentOf (← old)
  let place ← fs.locate path
  Fallible.guard .notDirectory (place.slash = false)
  let (fs, id) := fs.addNode (.file ⟨content, defaultPermissions, modified⟩)
  match fs.entry? place.directory place.name with
  | none => return fs.setName place.directory place.name id
  | some old =>
    fs.mayReplace id old
    return fs.setName place.directory place.name id

/-! ## 3. Names and attributes -/

/-- A name that can be given to a new node. -/
def freeLocation (fs : FileSystem) (path : String) : Except IoError Location := do
  let place ← fs.locate path
  Fallible.guard .alreadyExists (fs.entry? place.directory place.name).isNone
  return place

def touch (fs : FileSystem) (path : String) (time : Time) : Except IoError FileSystem := do
  return fs.setModified (← fs.follow path) time

def changePermissions (fs : FileSystem) (path : String) (permissions : Nat) :
    Except IoError FileSystem := do
  return fs.setPermissions (← fs.follow path) (permissions % 0o10000)

/-- Takes the name of a file or link away. -/
def removeName (fs : FileSystem) (path : String) : Except IoError FileSystem := do
  let place ← fs.locate path
  let id ← Fallible.require .notFound (fs.entry? place.directory place.name)
  Fallible.guard .isDirectory (fs.isDirectory id = false)
  Fallible.guard .notDirectory (place.slash = false)
  return fs.dropName place.directory place.name

def makeDirectory (fs : FileSystem) (path : String) : Except IoError FileSystem := do
  let place ← fs.freeLocation path
  let (fs, id) := fs.addNode (.directory ⟨[], place.directory, 0o755, fs.now⟩)
  return fs.setName place.directory place.name id

/-- Makes a symbolic link. -/
def makeLink (fs : FileSystem) (path target : String) : Except IoError FileSystem := do
  checkPath target
  let place ← fs.freeLocation path
  Fallible.guard .notFound (place.slash = false)
  let (fs, id) := fs.addNode (.link target)
  return fs.setName place.directory place.name id

/-- Gives the node that has a name another one. -/
def addName (fs : FileSystem) (path other : String) : Except IoError FileSystem := do
  let place ← fs.locate path
  let id ← Fallible.require .notFound (fs.entry? place.directory place.name)
  Fallible.guard (.other "Operation not permitted (os error 1)") (fs.isDirectory id = false)
  let free ← fs.freeLocation other
  Fallible.guard .notFound (free.slash = false)
  return fs.setName free.directory free.name id

/-- A directory and those above it, at most `steps` of them. -/
def ancestors (fs : FileSystem) : (steps : Nat) → NodeId → List NodeId
  | 0, _ => []
  | steps + 1, directory =>
    directory :: if directory = root then [] else fs.ancestors steps (fs.parentOf directory)

/-- Moves a name onto another one.  A directory cannot come to lie inside itself. -/
def move (fs : FileSystem) (path other : String) : Except IoError FileSystem := do
  let source ← fs.locate path
  let target ← fs.locate other
  let above := fs.ancestors fs.nodes.size target.directory
  Fallible.guard (.other "Invalid argument (os error 22)")
    (∀ id ∈ fs.entry? source.directory source.name, id ∉ above)
  fs.rename source target

def copyFile (fs : FileSystem) (path other : String) (stamp : Stamp) :
    Except IoError FileSystem := do
  fs.save other (← fs.load path) stamp

/-! ## 4. Listings -/

/-- How a listing shows a name: directories end in a slash and links in an at sign. -/
def shownName (fs : FileSystem) (entry : String × NodeId) : String :=
  match fs.node? entry.2 with
  | some (.directory _) => entry.1 ++ "/"
  | some (.link _) => entry.1 ++ "@"
  | _ => entry.1

/-- The names in a directory as a listing shows them, in the order of their bytes. -/
def listing (fs : FileSystem) (path : String) : Except IoError (List String) := do
  let entries ← fs.list path
  return (entries.map fs.shownName).mergeSort fun a b => decide (Utf8.bytes a ≤ Utf8.bytes b)

end FileSystem
end ConstStore
