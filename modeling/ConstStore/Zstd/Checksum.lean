/-
# The content checksum

A frame may end in the low 32 bits of the XXH64 hash of its content, with seed 0.  `xxh64`
computes that hash.  The content is read in stripes of four 64-bit lanes; each lane has an
accumulator of its own, and `Lanes.feed` turns the four accumulators so that the one in front
is always the one whose turn it is.
-/
import ConstStore.Bytes

namespace ConstStore
namespace Zstd
namespace Checksum

/-! ## 1. Rounds -/

def prime1 : UInt64 := 11400714785074694791
def prime2 : UInt64 := 14029467366897019727
def prime3 : UInt64 := 1609587929392839161
def prime4 : UInt64 := 9650029242287828579
def prime5 : UInt64 := 2870177450012600261

def rotateLeft (x : UInt64) (n : UInt64) : UInt64 :=
  x <<< n ||| x >>> (64 - n)

/-- One 64-bit word enters one accumulator. -/
def round (acc word : UInt64) : UInt64 :=
  rotateLeft (acc + word * prime2) 31 * prime1

/-- An accumulator enters the hash. -/
def merge (hash acc : UInt64) : UInt64 :=
  (hash ^^^ round 0 acc) * prime1 + prime4

/-- Mixes the bits of the finished hash. -/
def avalanche (h : UInt64) : UInt64 :=
  let h := (h ^^^ (h >>> 33)) * prime2
  let h := (h ^^^ (h >>> 29)) * prime3
  h ^^^ (h >>> 32)

/-- The 64-bit little-endian word of eight bytes. -/
def word (b0 b1 b2 b3 b4 b5 b6 b7 : UInt8) : UInt64 :=
  b0.toUInt64 ||| b1.toUInt64 <<< 8 ||| b2.toUInt64 <<< 16 ||| b3.toUInt64 <<< 24 |||
    b4.toUInt64 <<< 32 ||| b5.toUInt64 <<< 40 ||| b6.toUInt64 <<< 48 ||| b7.toUInt64 <<< 56

/-! ## 2. Stripes and the remaining bytes -/

/-- The four accumulators; `a` is fed next. -/
structure Lanes where
  a : UInt64
  b : UInt64
  c : UInt64
  d : UInt64

def Lanes.start : Lanes := ⟨prime1 + prime2, prime2, 0, 0 - prime1⟩

/-- A word enters the accumulator in front, which then goes to the back. -/
def Lanes.feed (lanes : Lanes) (w : UInt64) : Lanes :=
  ⟨lanes.b, lanes.c, lanes.d, round lanes.a w⟩

/-- The accumulators folded into one hash. -/
def Lanes.hash (lanes : Lanes) : UInt64 :=
  let h := rotateLeft lanes.a 1 + rotateLeft lanes.b 7 + rotateLeft lanes.c 12
    + rotateLeft lanes.d 18
  merge (merge (merge (merge h lanes.a) lanes.b) lanes.c) lanes.d

/-- Feeds `n` words and returns what follows them. -/
def feedWords : Nat → Lanes → Bytes → Lanes × Bytes
  | n + 1, lanes, b0 :: b1 :: b2 :: b3 :: b4 :: b5 :: b6 :: b7 :: rest =>
    feedWords n (lanes.feed (word b0 b1 b2 b3 b4 b5 b6 b7)) rest
  | _, lanes, bytes => (lanes, bytes)

/-- The bytes after the last whole stripe: words of eight, then of four, then single bytes. -/
def finish (h : UInt64) : Bytes → UInt64
  | b0 :: b1 :: b2 :: b3 :: b4 :: b5 :: b6 :: b7 :: rest =>
    let w := word b0 b1 b2 b3 b4 b5 b6 b7
    finish (rotateLeft (h ^^^ round 0 w) 27 * prime1 + prime4) rest
  | b0 :: b1 :: b2 :: b3 :: rest =>
    let w := word b0 b1 b2 b3 0 0 0 0
    finish (rotateLeft (h ^^^ (w * prime1)) 23 * prime2 + prime3) rest
  | b :: rest => finish (rotateLeft (h ^^^ (b.toUInt64 * prime5)) 11 * prime1) rest
  | [] => avalanche h

/-- The XXH64 hash, with seed 0. -/
def xxh64 (bytes : Bytes) : UInt64 :=
  let length := bytes.length
  let stripes := length / 32
  let (lanes, rest) := feedWords (4 * stripes) Lanes.start bytes
  let h := if stripes = 0 then prime5 else lanes.hash
  finish (h + UInt64.ofNat length) rest

/-- The four bytes that end a frame with this content. -/
def ofContent (content : Bytes) : Bytes :=
  Bytes.ofNat 4 (xxh64 content).toNat

@[simp] theorem length_ofContent (content : Bytes) : (ofContent content).length = 4 := by
  simp [ofContent]

end Checksum
end Zstd
end ConstStore
