/-
# Reading and writing at offsets

An open file has a position, at which it is read and written and which moves along.  A `Cursor`
remembers where that position is, so that reading records in the order in which they stand never
has to move it.  When an access falls short the cursor no longer knows.

The operations take the present content of the file, which is not the cursor's own: a base file
belongs to the file system, and a pending buffer to its session.
-/
import ConstStore.Error

namespace ConstStore

/-! ## 1. Open files -/

/-- The position of an open file. -/
structure OpenFile where
  position : Nat
  deriving Repr, DecidableEq

namespace OpenFile

/-- Reads up to `n` bytes and moves on behind them. -/
def read (file : OpenFile) (content : Bytes) (n : Nat) : Bytes × OpenFile :=
  let bytes := (content.drop file.position).take n
  (bytes, ⟨file.position + bytes.length⟩)

/-- Writes bytes over what is there, or behind the end, and moves on behind them.  A gap up to the
position is filled with zeros, unless there is nothing to write. -/
def write (file : OpenFile) (content bytes : Bytes) : Bytes × OpenFile :=
  let front := content.take file.position
  let gap := if bytes.isEmpty then [] else List.replicate (file.position - content.length) 0
  (front ++ gap ++ bytes ++ content.drop (file.position + bytes.length),
    ⟨file.position + bytes.length⟩)

end OpenFile

/-! ## 2. Cursors -/

/-- An open file with what is known of its position, and how often it had to be moved. -/
structure Cursor where
  file : OpenFile
  /-- The position, where it is known. -/
  known : Option Nat
  seeks : Nat
  deriving Repr, DecidableEq

namespace Cursor

/-- A cursor on a file whose position is `position`. -/
def new (position : Nat) : Cursor := ⟨⟨position⟩, some position, 0⟩

/-- Moves the position to an offset, unless it is known to be there. -/
def seek (cursor : Cursor) (offset : Nat) : Cursor :=
  if cursor.known = some offset then cursor
  else ⟨⟨offset⟩, some offset, cursor.seeks + 1⟩

/-- The `length` bytes at an offset. -/
def readAt (cursor : Cursor) (content : Bytes) (offset length : Nat) :
    Except IoError Bytes × Cursor :=
  let cursor := cursor.seek offset
  let (bytes, file) := cursor.file.read content length
  if bytes.length = length then (.ok bytes, { cursor with file, known := some (offset + length) })
  else (.error .shortRead, { cursor with file, known := none })

/-- The content with bytes written at an offset. -/
def writeAt (cursor : Cursor) (content : Bytes) (offset : Nat) (bytes : Bytes) : Bytes × Cursor :=
  let cursor := cursor.seek offset
  let (content, file) := cursor.file.write content bytes
  (content, { cursor with file, known := some (offset + bytes.length) })

/-- A copy of the region of `length` bytes at an offset.  When the file ends inside it, the cursor
stands at the end. -/
def copyRegion (cursor : Cursor) (content : Bytes) (offset length : Nat) :
    Except IoError Bytes × Cursor :=
  let cursor := cursor.seek offset
  let (bytes, file) := cursor.file.read content length
  let cursor := { cursor with file, known := some (offset + bytes.length) }
  if bytes.length = length then (.ok bytes, cursor)
  else (.error (.shortCopy bytes.length length), cursor)

end Cursor
end ConstStore
