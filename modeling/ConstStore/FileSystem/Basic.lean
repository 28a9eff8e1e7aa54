/-
# A file system

A file system is a table of nodes: files, directories and symbolic links.  A node is known by
its number, which is never given twice; a directory gives names to nodes.  So a file lives on
when its name is taken by another one, and whoever has opened it keeps reading the same bytes.

* `FileSystem.follow` finds the node that a path names, through symbolic links.
* `FileSystem.locate` finds the directory and the name that a path ends in.
* `Identity` is what tells that the file at a path is still the same and unaltered.

There is one root, which is also the working directory.
-/
import ConstStore.Error
import ConstStore.Fallible
import ConstStore.FileSystem.Path

namespace ConstStore

/-! ## 1. Nodes -/

/-- The number of a node. -/
abbrev NodeId := Nat

/-- A point in time, in seconds. -/
abbrev Time := Int

structure File where
  content : Bytes
  permissions : Nat
  modified : Time
  deriving Repr, DecidableEq

structure Directory where
  /-- The names in the directory and the nodes that they stand for. -/
  entries : List (String × NodeId)
  parent : NodeId
  permissions : Nat
  modified : Time
  deriving Repr, DecidableEq

inductive Node where
  | file (file : File)
  | directory (directory : Directory)
  /-- A symbolic link to a path. -/
  | link (target : String)
  deriving Repr, DecidableEq

/-- What tells two states of the file at a path apart. -/
structure Identity where
  node : NodeId
  modified : Time
  size : Nat
  deriving Repr, DecidableEq

/-- The nodes, each at its number, and a clock that moves on with every change. -/
structure FileSystem where
  nodes : Array Node
  clock : Nat
  deriving Repr, DecidableEq

namespace FileSystem

/-- The root directory. -/
def root : NodeId := 0

/-- A file system that holds an empty root. -/
def empty : FileSystem := ⟨#[.directory ⟨[], root, 0o755, 0⟩], 0⟩

def node? (fs : FileSystem) (id : NodeId) : Option Node := fs.nodes[id]?

/-- The node that a directory gives a name to. -/
def entry? (fs : FileSystem) (directory : NodeId) (name : String) : Option NodeId :=
  match fs.node? directory with
  | some (.directory d) => d.entries.lookup name
  | _ => none

/-- The directory that a directory lies in. -/
def parentOf (fs : FileSystem) (directory : NodeId) : NodeId :=
  match fs.node? directory with
  | some (.directory d) => d.parent
  | _ => root

/-! ## 2. Following a path -/

/-- What a path leads to: a node, or a free name in a directory. -/
inductive Target where
  | node (id : NodeId)
  | free (directory : NodeId) (name : String)
  deriving Repr, DecidableEq

/-- The longest name of a directory entry, in bytes. -/
def maxName : Nat := 255

/-- The longest path, in bytes. -/
def maxPath : Nat := 4095

/-- The most symbolic links that are followed on the way to one node. -/
def maxLinks : Nat := 40

/-- Walks down from a directory.  At a symbolic link, `jump` goes on from the directory that the
link's target starts at. -/
def descend (fs : FileSystem) (jump : NodeId → List String → Except IoError Target) :
    NodeId → List String → Except IoError Target
  | directory, [] => .ok (.node directory)
  | directory, name :: rest =>
    if Path.isIdle name then descend fs jump directory rest
    else if name = ".." then descend fs jump (fs.parentOf directory) rest
    else if maxName < name.utf8ByteSize then .error .nameTooLong
    else match fs.entry? directory name with
    | none => if rest.isEmpty then .ok (.free directory name) else .error .notFound
    | some id =>
      match fs.node? id with
      | some (.link target) =>
        jump (if Path.isAbsolute target then root else directory) (Path.components target ++ rest)
      | some (.directory _) => descend fs jump id rest
      | _ => if rest.isEmpty then .ok (.node id) else .error .notDirectory

/-- Walks down from a directory through at most `links` symbolic links. -/
def walk (fs : FileSystem) : (links : Nat) → NodeId → List String → Except IoError Target
  | 0 => fs.descend fun _ _ => .error .tooManyLinks
  | links + 1 => fs.descend (fs.walk links)

/-- A path that can be looked up at all. -/
def checkPath (path : String) : Except IoError Unit :=
  if path.toList.contains '\x00' then .error .nulInPath
  else if path = "" then .error .notFound
  else if maxPath < path.utf8ByteSize then .error .nameTooLong
  else .ok ()

/-- What a path leads to. -/
def target (fs : FileSystem) (path : String) : Except IoError Target := do
  checkPath path
  fs.walk maxLinks root (Path.components path)

/-- The node that a path leads to. -/
def follow (fs : FileSystem) (path : String) : Except IoError NodeId := do
  match ← fs.target path with
  | .node id => return id
  | .free _ _ => throw .notFound

/-- A name in a directory.  `slash` tells that the path it comes from asks for a directory. -/
structure Location where
  directory : NodeId
  name : String
  slash : Bool
  deriving Repr, DecidableEq

/-- The directory and the name that a path ends in.  A symbolic link there is not followed. -/
def locate (fs : FileSystem) (path : String) : Except IoError Location := do
  checkPath path
  let parts := Path.components path
  let trimmed := (parts.reverse.dropWhile (· = "")).reverse
  match trimmed.getLast? with
  | none => throw .busy
  | some name =>
    Fallible.guard .busy (name ≠ "." ∧ name ≠ "..")
    Fallible.guard .nameTooLong (name.utf8ByteSize ≤ maxName)
    match ← fs.walk maxLinks root trimmed.dropLast with
    | .free _ _ => throw .notFound
    | .node id =>
      match fs.node? id with
      | some (.directory _) => return ⟨id, name, trimmed.length < parts.length⟩
      | _ => throw .notDirectory

/-! ## 3. Looking at nodes -/

/-- The size that every directory has. -/
def directorySize : Nat := 4096

/-- The identity of a node. -/
def identityOf (fs : FileSystem) (id : NodeId) : Identity :=
  match fs.node? id with
  | some (.file file) => ⟨id, file.modified, file.content.length⟩
  | some (.directory d) => ⟨id, d.modified, directorySize⟩
  | _ => ⟨id, 0, 0⟩

/-- The identity of what is at a path; `none` when nothing is there. -/
def identity? (fs : FileSystem) (path : String) : Except IoError (Option Identity) :=
  match fs.follow path with
  | .ok id => .ok (some (fs.identityOf id))
  | .error .notFound => .ok none
  | .error cause => .error cause

/-- The bytes of a file. -/
def contentOf (fs : FileSystem) (id : NodeId) : Except IoError Bytes :=
  match fs.node? id with
  | some (.file file) => .ok file.content
  | some (.directory _) => .error .isDirectory
  | _ => .error .notFound

/-- The bytes of the file at a path. -/
def load (fs : FileSystem) (path : String) : Except IoError Bytes := do
  fs.contentOf (← fs.follow path)

/-- The permissions of a node. -/
def permissionsOf (fs : FileSystem) (id : NodeId) : Nat :=
  match fs.node? id with
  | some (.file file) => file.permissions
  | some (.directory d) => d.permissions
  | _ => 0o777

/-- The permissions of what is at a path; `none` when nothing is there. -/
def permissions? (fs : FileSystem) (path : String) : Except IoError (Option Nat) :=
  match fs.follow path with
  | .ok id => .ok (some (fs.permissionsOf id))
  | .error .notFound => .ok none
  | .error cause => .error cause

/-- Whether a node is a directory. -/
def isDirectory (fs : FileSystem) (id : NodeId) : Bool :=
  match fs.node? id with
  | some (.directory _) => true
  | _ => false

/-- The names in the directory at a path, with their nodes. -/
def list (fs : FileSystem) (path : String) : Except IoError (List (String × NodeId)) := do
  match fs.node? (← fs.follow path) with
  | some (.directory d) => return d.entries
  | _ => throw .notDirectory

/-! ## 4. Changing nodes and names -/

/-- A moment later. -/
def tick (fs : FileSystem) : FileSystem := { fs with clock := fs.clock + 1 }

/-- The present moment. -/
def now (fs : FileSystem) : Time := fs.clock

def setNode (fs : FileSystem) (id : NodeId) (node : Node) : FileSystem :=
  { fs with nodes := fs.nodes.setIfInBounds id node }

/-- A new node, which has no name yet, and its number. -/
def addNode (fs : FileSystem) (node : Node) : FileSystem × NodeId :=
  ({ fs with nodes := fs.nodes.push node }, fs.nodes.size)

/-- Replaces the entries of a directory. -/
def setEntries (fs : FileSystem) (directory : NodeId)
    (change : List (String × NodeId) → List (String × NodeId)) : FileSystem :=
  let fs := fs.tick
  match fs.node? directory with
  | some (.directory d) =>
    fs.setNode directory (.directory { d with entries := change d.entries, modified := fs.now })
  | _ => fs

/-- Entries without a name. -/
def without (name : String) (entries : List (String × NodeId)) : List (String × NodeId) :=
  entries.filter fun (n, _) => n ≠ name

/-- Gives a name to a node, taking it away from another one. -/
def setName (fs : FileSystem) (directory : NodeId) (name : String) (id : NodeId) : FileSystem :=
  fs.setEntries directory fun entries => without name entries ++ [(name, id)]

/-- Takes a name away.  The node stays. -/
def dropName (fs : FileSystem) (directory : NodeId) (name : String) : FileSystem :=
  fs.setEntries directory (without name)

/-- Changes a file in place. -/
def updateFile (fs : FileSystem) (id : NodeId) (change : File → File) : FileSystem :=
  match fs.node? id with
  | some (.file file) => fs.setNode id (.file (change file))
  | _ => fs

/-- Gives a node other permissions. -/
def setPermissions (fs : FileSystem) (id : NodeId) (permissions : Nat) : FileSystem :=
  match fs.node? id with
  | some (.file file) => fs.setNode id (.file { file with permissions })
  | some (.directory d) => fs.setNode id (.directory { d with permissions })
  | _ => fs

/-- Gives a node another time of modification. -/
def setModified (fs : FileSystem) (id : NodeId) (modified : Time) : FileSystem :=
  match fs.node? id with
  | some (.file file) => fs.setNode id (.file { file with modified })
  | some (.directory d) => fs.setNode id (.directory { d with modified })
  | _ => fs

/-- Whether a node may take the place of another one: a file replaces only files and links, and a
directory only an empty directory. -/
def mayReplace (fs : FileSystem) (id old : NodeId) : Except IoError Unit :=
  match fs.node? old with
  | some (.directory d) =>
    if fs.isDirectory id then Fallible.guard .directoryNotEmpty d.entries.isEmpty
    else .error .isDirectory
  | _ => Fallible.guard .notDirectory (fs.isDirectory id = false)

/-- A directory that has been moved lies in another directory; other nodes do not notice. -/
def setParent (fs : FileSystem) (id parent : NodeId) : FileSystem :=
  match fs.node? id with
  | some (.directory d) => fs.setNode id (.directory { d with parent })
  | _ => fs

/-- Moves a name onto another one, which then stands for the same node.  Two names of one node
both stay. -/
def rename (fs : FileSystem) (source target : Location) : Except IoError FileSystem := do
  let id ← Fallible.require .notFound (fs.entry? source.directory source.name)
  Fallible.guard .notDirectory (target.slash = false ∨ fs.isDirectory id)
  let moved := ((fs.dropName source.directory source.name).setName
    target.directory target.name id).setParent id target.directory
  match fs.entry? target.directory target.name with
  | none => return moved
  | some old =>
    if old = id then return fs else
      fs.mayReplace id old
      return moved

/-! ## 5. Temporary files -/

/-- The suffix that makes the `n`-th name for a temporary file: six zeros and `n` more. -/
def temporarySuffix (n : Nat) : String := String.ofList (List.replicate (6 + n) '0')

/-- The names in a directory. -/
def namesIn (fs : FileSystem) (directory : NodeId) : List String :=
  match fs.node? directory with
  | some (.directory d) => d.entries.map (·.1)
  | _ => []

/-- The names that following a path can come across: those in the path itself and in the targets
of all symbolic links. -/
def namesOn (fs : FileSystem) (path : String) : List String :=
  Path.components path ++ fs.nodes.toList.flatMap fun
    | .link target => Path.components target
    | _ => []

/-- A name that starts with `start` and that nobody else has chosen: it is free in a directory,
and `path` does not lead through it. -/
def freshName? (fs : FileSystem) (directory : NodeId) (start path : String) : Option String :=
  let known := fs.namesIn directory ++ fs.namesOn path
  ((List.range (known.length + 1)).map fun n => start ++ temporarySuffix n).find?
    fun name => name ∉ known

/-- A new, empty file with a fresh name, the path of which is `above` and a name that starts with
`start`.  It is private to its owner, who is about to work on what is at `path`. -/
def createTemporary (fs : FileSystem) (above start path : String) :
    Except IoError (FileSystem × Location × NodeId) := do
  let beginning ← fs.locate (Path.child above (start ++ temporarySuffix 0))
  let shown := (Path.components start).getLast?.getD ""
  match fs.freshName? beginning.directory shown path with
  | none => throw .alreadyExists
  | some name =>
    let (fs, id) := fs.addNode (.file ⟨[], 0o600, fs.now⟩)
    return (fs.setName beginning.directory name id, ⟨beginning.directory, name, false⟩, id)

/-- Whether a file without a name can be made in the directory at a path.  The empty path is the
working directory. -/
def checkDirectory (fs : FileSystem) (path : String) : Except IoError Unit := do
  let id ← fs.follow (if path = "" then "." else path)
  if fs.isDirectory id then return () else throw .notDirectory

end FileSystem
end ConstStore
