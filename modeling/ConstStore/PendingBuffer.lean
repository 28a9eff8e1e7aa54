/-
# Pending records

The records that a session adds are kept in a buffer of its own until the session is closed.  The
buffer is a file without a name in the directory of the store: nobody else can reach it, so its
bytes belong to the buffer itself.
-/
import ConstStore.Cursor
import ConstStore.FileSystem.Basic
import ConstStore.Compression
import ConstStore.Log

namespace ConstStore

/-- Where a record was appended, its size, and the length of its value. -/
structure Appended where
  /-- The offset of the record inside the buffer. -/
  offset : Nat
  size : Nat
  length : Nat
  deriving Repr, DecidableEq

/-- The records added so far, one behind the other. -/
structure PendingBuffer where
  content : Bytes
  cursor : Cursor
  records : Nat
  deriving Repr, DecidableEq

namespace PendingBuffer

/-- An empty buffer. -/
def empty : PendingBuffer := ⟨[], .new 0, 0⟩

/-- A buffer in the directory at a path, which has to exist. -/
def create (fs : FileSystem) (directory : String) : Logged (Except Error PendingBuffer) :=
  match fs.checkDirectory directory with
  | .error cause => return .error (.io cause)
  | .ok () => do
    Logged.report .debug ("created pending buffer in " ++ directory)
    return .ok empty

/-- The number of bytes in the buffer. -/
def size (buffer : PendingBuffer) : Nat := buffer.content.length

def isEmpty (buffer : PendingBuffer) : Bool := buffer.records = 0

/-- Compresses a value and appends it. -/
def append (buffer : PendingBuffer) (level : Zstd.Level) (value : Bytes) :
    Appended × PendingBuffer :=
  let compressed := compress level value
  let offset := buffer.size
  let (content, cursor) := buffer.cursor.writeAt buffer.content offset compressed.bytes
  (⟨offset, compressed.size, compressed.length⟩, ⟨content, cursor, buffer.records + 1⟩)

/-- The value of the record of `size` bytes at an offset, which is to have the given length. -/
def readRecord (buffer : PendingBuffer) (offset size length : Nat) :
    Except Error Bytes × PendingBuffer :=
  if buffer.size < offset + size then (.error (.format .outsidePending), buffer)
  else
    let (read, cursor) := buffer.cursor.readAt buffer.content offset size
    let value := match read with
      | .error cause => .error (.io cause)
      | .ok bytes => decompress bytes length
    (value, { buffer with cursor })

/-- A copy of all records, in the order in which they were added. -/
def copyRecords (buffer : PendingBuffer) : Except Error Bytes × PendingBuffer :=
  let (copied, cursor) := buffer.cursor.copyRegion buffer.content 0 buffer.size
  (copied.mapError .io, { buffer with cursor })

end PendingBuffer
end ConstStore
