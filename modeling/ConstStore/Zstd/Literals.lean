/-
# The literals section of a block

A compressed block starts with its literals: stored as they are, as one repeated byte, or
Huffman coded in one stream or in four.  A coded section brings its own code or, in a treeless
section, uses the code of an earlier block.
-/
import ConstStore.Zstd.Huffman

namespace ConstStore
namespace Zstd

/-- What a literals section yields: the literals, the code that later blocks may use again, and
the rest of the block. -/
structure Literals where
  content : Bytes
  /-- Whether the literals are used where they stand in the block.  Others are kept elsewhere. -/
  inPlace : Bool
  code : Option Huffman.Tree
  rest : Bytes

namespace Literals

/-- The header of a stored section: the number of literals and the bytes that follow.  `format`
selects a header of one, two or three bytes. -/
def readStoredHeader (format : Nat) (bytes : Bytes) : Except Fault (Nat × Bytes) := do
  let width := if format = 1 then 2 else if format = 3 then 3 else 1
  let (n, rest) ← Fallible.require Fault.literals (Bytes.splitNat? width bytes)
  return (if width = 1 then n / 8 else n / 16, rest)

/-- The header of a coded section: the number of literals, the size of their code and streams,
and the bytes that follow.  A coded section is never shorter than five bytes. -/
def readCodedHeader (format : Nat) (bytes : Bytes) : Except Fault (Nat × Nat × Bytes) := do
  Fallible.guard Fault.literals (5 ≤ bytes.length)
  let (width, digits) := if format = 3 then (5, 18) else if format = 2 then (4, 14) else (3, 10)
  let (n, rest) ← Fallible.require Fault.literals (Bytes.splitNat? width bytes)
  return ((n >>> 4) % (1 <<< digits), n >>> (4 + digits), rest)

/-- Stored literals are used where they stand when at least this many bytes follow them. -/
def copyMargin : Nat := 32

/-- The least number of literals that four streams are used for. -/
def minForFour : Nat := 6

/-- Four streams, each with a quarter of the literals, behind the sizes of the first three. -/
def decodeFour? (code : Huffman.Tree) (count : Nat) (bytes : Bytes) : Option (Array UInt8) := do
  let (size1, bytes) ← Bytes.splitNat? 2 bytes
  let (size2, bytes) ← Bytes.splitNat? 2 bytes
  let (size3, bytes) ← Bytes.splitNat? 2 bytes
  let (stream1, bytes) ← Bytes.split? size1 bytes
  let (stream2, bytes) ← Bytes.split? size2 bytes
  let (stream3, stream4) ← Bytes.split? size3 bytes
  let quarter := (count + 3) / 4
  if count < 3 * quarter then none else
    let out ← code.decode? quarter #[] stream1
    let out ← code.decode? quarter out stream2
    let out ← code.decode? quarter out stream3
    code.decode? (count - 3 * quarter) out stream4

/-- Reads the literals section of a block whose content has at most `limit` bytes. -/
def read (limit : Nat) (code : Option Huffman.Tree) (bytes : Bytes) : Except Fault Literals := do
  let (head, _) ← Fallible.require Fault.literals (Bytes.splitNat? 1 bytes)
  let kind := head % 4
  let format := head / 4 % 4
  if kind < 2 then
    let (count, rest) ← readStoredHeader format bytes
    Fallible.guard Fault.literals (count ≤ limit)
    let (stored, rest) ←
      Fallible.require Fault.literals (Bytes.split? (if kind = 0 then count else 1) rest)
    let content := if kind = 0 then stored else stored.flatMap (List.replicate count)
    return ⟨content, kind = 0 ∧ copyMargin ≤ rest.length, code, rest⟩
  else
    let (count, size, rest) ← readCodedHeader format bytes
    Fallible.guard Fault.literals (count ≤ limit)
    Fallible.guard Fault.literals (format = 0 ∨ minForFour ≤ count)
    let (coded, rest) ← Fallible.require Fault.literals (Bytes.split? size rest)
    let (tree, streams) ←
      if kind = 2 then Huffman.readTree coded
      else (Fallible.require Fault.literals code).map (·, coded)
    let content ← Fallible.require Fault.literals <|
      if format = 0 then tree.decode? count #[] streams else decodeFour? tree count streams
    return ⟨content.toList, false, some tree, rest⟩

end Literals
end Zstd
end ConstStore
