/-
# Bit streams

The compressed parts of a block are bit streams over whole bytes.  Table descriptions are read
forwards, lowest bit of the first byte first.  Codes are read backwards: the stream starts
behind the highest set bit of its last byte and runs down to the lowest bit of its first byte.

Both are plain lists of bits here, in the order in which they are read, so that running out of
input is running out of list.
-/
import ConstStore.Bytes

namespace ConstStore
namespace Zstd
namespace Bits

/-- The bits of a byte, lowest first. -/
def ofByte (b : UInt8) : List Bool :=
  (List.range 8).map b.toNat.testBit

/-- The bits of a forward stream, in reading order. -/
def forward (bytes : Bytes) : List Bool :=
  bytes.flatMap ofByte

/-- The bits of a backward stream, in reading order.  The highest set bit of the last byte only
marks the end, so a stream that is empty or whose last byte is zero has no start. -/
def backward? (bytes : Bytes) : Option (List Bool) :=
  match bytes.getLast? with
  | none => none
  | some last =>
    if last = 0 then none else some (((forward bytes).reverse.dropWhile (!·)).drop 1)

/-- A number of `n` bits whose lowest bit comes first. -/
def readLow : (n : Nat) → List Bool → Option (Nat × List Bool)
  | 0, bits => some (0, bits)
  | _ + 1, [] => none
  | n + 1, bit :: bits => (readLow n bits).map fun (v, rest) => (bit.toNat + 2 * v, rest)

/-- Continues a number, of which `high` has been read, by `n` bits, the highest first. -/
def readOnto (high : Nat) : (n : Nat) → List Bool → Option (Nat × List Bool)
  | 0, bits => some (high, bits)
  | _ + 1, [] => none
  | n + 1, bit :: bits => readOnto (2 * high + bit.toNat) n bits

/-- A number of `n` bits whose highest bit comes first. -/
def readHigh (n : Nat) (bits : List Bool) : Option (Nat × List Bool) :=
  readOnto 0 n bits

end Bits
end Zstd
end ConstStore
