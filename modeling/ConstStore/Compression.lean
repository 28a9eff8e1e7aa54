/-
# Compressed records

Every record of a store, and its index, is a compressed stream of its own that carries a
checksum, so that damage is noticed instead of yielding wrong bytes.

`decompress` is told how long the content has to be.  It reads at most one byte more, so a
stream that expands without bound is given up early.
-/
import ConstStore.Error
import ConstStore.Zstd.Encoder

namespace ConstStore

/-- A compressed byte string, with the length that it had. -/
structure Compressed where
  bytes : Bytes
  /-- The length of the content. -/
  length : Nat
  deriving Repr, DecidableEq

/-- The number of compressed bytes. -/
def Compressed.size (compressed : Compressed) : Nat := compressed.bytes.length

/-- The level used where none is asked for. -/
def defaultLevel : Zstd.Level := 3

/-- Compresses a byte string. -/
def compress (level : Zstd.Level) (content : Bytes) : Compressed :=
  ⟨Zstd.encode level content, content.length⟩

/-- The content of a compressed byte string, which has to have the length `expected`. -/
def decompress (bytes : Bytes) (expected : Nat) : Except Error Bytes :=
  match Zstd.decodeUpTo expected bytes with
  | .error fault => .error (.decode (.frame fault))
  | .ok content =>
    if content.length = expected then .ok content
    else .error (.recordLength expected content.length)

end ConstStore
