/-
# The header of a store

A store starts with 24 bytes: a fingerprint, the size of the compressed index that follows, and
the length of that index once decompressed.
-/
import ConstStore.Error

namespace ConstStore

/-- The first 24 bytes of a store. -/
structure Header where
  fingerprint : Bytes
  /-- The size of the compressed index behind the header. -/
  indexSize : UInt64
  /-- The length of the index once decompressed. -/
  indexLength : UInt64
  deriving Repr, DecidableEq

namespace Header

/-- The eight bytes that every store starts with: `cachedb-` in ASCII. -/
def storeFingerprint : Bytes := [0x63, 0x61, 0x63, 0x68, 0x65, 0x64, 0x62, 0x2d]

/-- The size of a header. -/
def size : Nat := 24

/-- The header of a store with such an index. -/
def ofIndex (indexSize indexLength : UInt64) : Header :=
  ⟨storeFingerprint, indexSize, indexLength⟩

/-- The header that holds the place of another one which is not known yet. -/
def placeholder : Header := ⟨List.replicate 8 0, 0, 0⟩

/-- Where the first record starts. -/
def dataOffset (header : Header) : Nat := size + header.indexSize.toNat

/-- The bytes of a header. -/
def encode (header : Header) : Bytes :=
  header.fingerprint ++ Codec.u64.encode header.indexSize ++ Codec.u64.encode header.indexLength

/-- Reads the header at the front of a byte string. -/
def decode (bytes : Bytes) : Except Error Header :=
  if bytes.length < size then .error (.format .truncatedHeader)
  else if bytes.take 8 ≠ storeFingerprint then .error (.format .fingerprintMismatch)
  else
    let number := fun offset => UInt64.ofNat (Bytes.toNat ((bytes.drop offset).take 8))
    .ok (ofIndex (number 8) (number 16))

end Header
end ConstStore
