/-
# Compressed blocks

A compressed block holds literals and the sequences that mix them with copies of earlier
content.  Reading one appends its content to that of the frame, and may leave a Huffman code,
sequence tables and recent distances for the blocks that follow (`Memory`).
-/
import ConstStore.Zstd.Literals
import ConstStore.Zstd.Sequences

namespace ConstStore
namespace Zstd

/-- What a block may take over from the blocks before it in its frame. -/
structure Memory where
  code : Option Huffman.Tree
  tables : Option Tables
  recent : Recent

/-- A frame starts with no code and no tables. -/
def Memory.start : Memory := ⟨none, none, .start⟩

namespace Block

/-- No block has a larger content than this. -/
def maxSize : Nat := 128 * 1024

/-- How much the sequences of a block may yield.  In a frame that is decoded in one go, for whose
content there is this space, it is not the block limit that they have to keep to.  But literals that
are kept elsewhere are kept in that space, behind the largest block, where it is large enough. -/
def room (limit : Nat) (literals : Literals) : (space : Option Nat) → Nat
  | none => limit
  | some space =>
    if !literals.inPlace ∧ limit + literals.content.length + 2 * Literals.copyMargin < space then
      limit + Literals.copyMargin
    else space

/-- Appends the content of a compressed block to `out`.  It has at most `limit` literals. -/
def decode (limit : Nat) (space : Option Nat) (memory : Memory) (out : Array UInt8)
    (body : Bytes) : Except Fault (Memory × Array UInt8) := do
  let start := out.size
  let literals ← Literals.read limit memory.code body
  let room := room limit literals space
  let (count, rest) ← Fallible.require Fault.sequences (Sequences.readCount? literals.rest)
  if count = 0 then
    Fallible.guard Fault.sequences rest.isEmpty
    return ({ memory with code := literals.code }, out.appendList literals.content)
  else
    let (tables, stream) ← Sequences.readTables memory.tables rest
    let run ← Fallible.require Fault.sequences
      (Run.start? tables stream literals.content memory.recent out)
    let run ← run.sequences tables (start + room) count
    Fallible.guard Fault.sequences run.bits.isEmpty
    let ⟨_, _, _, _, left, recent, out⟩ := run
    Fallible.guard Fault.blockTooLarge (out.size + left.length ≤ start + room)
    return (⟨literals.code, some tables, recent⟩, out.appendList left)

end Block
end Zstd
end ConstStore
