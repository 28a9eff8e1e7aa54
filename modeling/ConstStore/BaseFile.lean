/-
# Base files

The base file of a session is the published store that it was opened on.  `Contents.parse` reads
the bytes of a store; it is a function of the bytes alone, and it accepts a file only when header,
index and size agree.  `BaseFile.open` does so for the file at a path and keeps it open: the
records are read later, from the node that was opened, whatever becomes of its name.

`Snapshot` is what a path looked like when a session was opened, to be compared later.
-/
import ConstStore.Cursor
import ConstStore.FileSystem.Basic
import ConstStore.Index
import ConstStore.Header
import ConstStore.Log

namespace ConstStore

/-! ## 1. The bytes of a store -/

/-- What the bytes of a store say, up to the records. -/
structure Contents where
  header : Header
  index : Index
  lookup : Lookup
  deriving Repr, DecidableEq

/-- Reads the bytes of a store.  The last record ends where the file does. -/
def Contents.parse (bytes : Bytes) : Except Error Contents := do
  let header ← Header.decode (bytes.take Header.size)
  let indexSize := header.indexSize.toNat
  Fallible.guard (.format .truncatedIndex) (indexSize ≤ bytes.length - Header.size)
  let index ← Index.decode ((bytes.drop Header.size).take indexSize) header.indexLength.toNat
  let lookup ← Lookup.build index header.dataOffset
  Fallible.guard (.format .sizeMismatch) (lookup.endOffset = bytes.length)
  return ⟨header, index, lookup⟩

/-! ## 2. Snapshots -/

/-- What there is at a path: nothing, or something with an identity. -/
inductive Snapshot where
  | absent
  | present (identity : Identity)
  deriving Repr, DecidableEq

namespace Snapshot

/-- What there is at a path now. -/
def take (fs : FileSystem) (path : String) : Except Error Snapshot :=
  match fs.identity? path with
  | .ok (some identity) => .ok (.present identity)
  | .ok none => .ok .absent
  | .error cause => .error (.io cause)

/-- Whether there still is the same at a path. -/
def unchanged (snapshot : Snapshot) (fs : FileSystem) (path : String) : Except Error Bool :=
  (take fs path).map fun present => present = snapshot

end Snapshot

/-! ## 3. Open base files -/

/-- A store that is open for reading. -/
structure BaseFile where
  node : NodeId
  cursor : Cursor
  header : Header
  /-- The identity of the file when it was opened. -/
  identity : Identity
  deriving Repr, DecidableEq

namespace BaseFile

/-- Opens the store at a path: the open file and what its bytes say.  `none` when nothing is
there. -/
def «open» (fs : FileSystem) (path : String) :
    Logged (Except Error (Option (BaseFile × Contents))) :=
  match fs.follow path with
  | .error .notFound => return .ok none
  | .error cause => return .error (.io cause)
  | .ok node =>
    match fs.contentOf node with
    | .error cause => return .error (.io cause)
    | .ok bytes =>
      match Contents.parse bytes with
      | .error error => return .error error
      | .ok contents => do
        let identity := fs.identityOf node
        Logged.report .debug <|
          "opened " ++ path ++ " with " ++ toString contents.index.size ++ " records ("
            ++ toString identity.size ++ " bytes)"
        return .ok (some (⟨node, .new contents.header.dataOffset, contents.header, identity⟩,
          contents))

/-- The size of the file when it was opened. -/
def size (base : BaseFile) : Nat := base.identity.size

def isEmpty (base : BaseFile) : Bool := base.size = 0

/-- How often the position in the file had to be moved. -/
def seeks (base : BaseFile) : Nat := base.cursor.seeks

/-- The value of the record of `size` bytes at an offset, which is to have the given length. -/
def readRecord (base : BaseFile) (fs : FileSystem) (offset size length : Nat) :
    Except Error Bytes × BaseFile :=
  if offset < base.header.dataOffset ∨ base.size < offset + size then
    (.error (.format .outsideBase), base)
  else
    match fs.contentOf base.node with
    | .error cause => (.error (.io cause), base)
    | .ok content =>
      let (read, cursor) := base.cursor.readAt content offset size
      let value := match read with
        | .error cause => .error (.io cause)
        | .ok bytes => decompress bytes length
      (value, { base with cursor })

/-- A copy of the whole region of records. -/
def copyRecords (base : BaseFile) (fs : FileSystem) : Except Error Bytes × BaseFile :=
  match fs.contentOf base.node with
  | .error cause => (.error (.io cause), base)
  | .ok content =>
    let start := base.header.dataOffset
    let (copied, cursor) := base.cursor.copyRegion content start (base.size - start)
    (copied.mapError .io, { base with cursor })

end BaseFile
end ConstStore
