/-
# Huffman codes of literals

A code is a binary tree whose leaves are the literals.  It is described by a weight for each
literal but the last: weight `w` is a share of `2 ^ (w - 1)` of the code space, weight 0 none,
and the last literal gets what is missing to a power of two.  The tree is laid out with the
smallest weights on the left, and literals of one weight in their natural order.

* `readTree` reads the weights, written as nibbles or as an FSE stream.
* `Tree.ofWeights?` completes and checks them and builds the tree.
* `Tree.decode?` reads a given number of literals from a stream that it has to use up exactly.
-/
import ConstStore.Zstd.Fse

namespace ConstStore
namespace Zstd
namespace Huffman

/-- A code tree: 0 goes left, 1 goes right. -/
inductive Tree where
  | leaf (literal : UInt8)
  | node (left right : Tree)
  deriving Repr

/-! ## 1. Decoding -/

/-- Follows the bits to a leaf. -/
def Tree.next? : Tree → List Bool → Option (UInt8 × List Bool)
  | leaf b, bits => some (b, bits)
  | node _ _, [] => none
  | node l r, bit :: bits => if bit then r.next? bits else l.next? bits

/-- Appends `n` literals to `out`. -/
def Tree.decodeOnto (tree : Tree) : (n : Nat) → Array UInt8 → List Bool →
    Option (Array UInt8 × List Bool)
  | 0, out, bits => some (out, bits)
  | n + 1, out, bits =>
    match tree.next? bits with
    | none => none
    | some (b, bits) => tree.decodeOnto n (out.push b) bits

/-- Appends the `n` literals of a whole stream.  The stream must not hold anything else. -/
def Tree.decode? (tree : Tree) (n : Nat) (out : Array UInt8) (stream : Bytes) :
    Option (Array UInt8) := do
  let bits ← Bits.backward? stream
  let (out, rest) ← tree.decodeOnto n out bits
  if rest.isEmpty then some out else none

/-! ## 2. From weights to trees -/

/-- The largest number of bits of a code. -/
def maxLog : Nat := 12

/-- The share of the code space that a weight stands for. -/
def share (weight : Nat) : Nat := (1 <<< weight) / 2

/-- A complete list of weights: the given ones and that of the last literal, which fills the
code space up to a power of two, with the number of bits of that power. -/
def complete? (weights : List Nat) : Option (List Nat × Nat) :=
  if weights.any (maxLog < ·) then none else
  let total := weights.foldr (fun weight total => share weight + total) 0
  if total = 0 then none else
  let log := total.log2 + 1
  let missing := (1 <<< log) - total
  if maxLog < log then none else
  if missing ≠ 1 <<< missing.log2 then none else
  let weights := weights ++ [missing.log2 + 1]
  let longest := weights.count 1
  if longest < 2 ∨ longest % 2 = 1 then none else some (weights, log)

/-- A tree of the given height from literals in the order of their weights, and the literals
that are left over. -/
def fill? : (height : Nat) → List (Nat × Nat) → Option (Tree × List (Nat × Nat))
  | _, [] => none
  | 0, (weight, b) :: rest => if weight = 1 then some (.leaf (UInt8.ofNat b), rest) else none
  | height + 1, (weight, b) :: rest =>
    if weight = height + 2 then some (.leaf (UInt8.ofNat b), rest) else do
      let (l, rest) ← fill? height ((weight, b) :: rest)
      let (r, rest) ← fill? height rest
      return (.node l r, rest)

/-- The code with these weights; the last one is left out. -/
def Tree.ofWeights? (weights : List Nat) : Option Tree := do
  let (weights, log) ← complete? weights
  let literals := weights.zip (List.range weights.length)
  let byWeight := (List.range log).flatMap fun i => literals.filter (·.1 = i + 1)
  let (tree, rest) ← fill? log byWeight
  if rest.isEmpty then some tree else none

/-! ## 3. Reading weights -/

/-- Weights written as nibbles, the high one of a byte first. -/
def ofNibbles (bytes : Bytes) : List Nat :=
  bytes.flatMap fun b => [b.toNat / 16, b.toNat % 16]

/-- Weights from two FSE states that take turns.  The stream ends where it has too few bits for
the next state; the other state then gives the last weight.  `room` bounds their number. -/
def decodeWeights? (table : Fse.Table) : (room : Nat) → (state other : Nat) → List Bool →
    List Nat → Option (List Nat)
  | 0, _, _, _, _ => none
  | room + 1, state, other, bits, weights =>
    let weights := (table.cell state).symbol :: weights
    match table.next? state bits with
    | none => some (((table.cell other).symbol :: weights).reverse)
    | some (state, bits) => decodeWeights? table room other state bits weights

/-- The largest `log` of the table for weights. -/
def weightLog : Nat := 6

/-- The most literals that can be given a weight. -/
def maxWeights : Nat := 255

/-- Weights written as an FSE stream: a table description, then a backward stream. -/
def readCodedWeights (bytes : Bytes) : Except Fault (List Nat) := do
  let description ← Fse.readCounts weightLog 256 bytes
  let table := Fse.Table.ofCounts description.log description.counts
  let weights := do
    let bits ← Bits.backward? (bytes.drop description.size)
    let (first, bits) ← table.start? bits
    let (second, bits) ← table.start? bits
    decodeWeights? table (maxWeights - 1) first second bits []
  Fallible.require Fault.huffmanCode weights

/-- Reads a code description at the front of `bytes`: the code and what follows it. -/
def readTree (bytes : Bytes) : Except Fault (Tree × Bytes) := do
  let (head, bytes) ← Fallible.require Fault.huffmanCode (Bytes.splitNat? 1 bytes)
  if head < 128 then
    let (coded, rest) ← Fallible.require Fault.huffmanCode (Bytes.split? head bytes)
    let weights ← readCodedWeights coded
    let tree ← Fallible.require Fault.huffmanCode (Tree.ofWeights? weights)
    return (tree, rest)
  else
    let count := head - 127
    let (nibbles, rest) ←
      Fallible.require Fault.huffmanCode (Bytes.split? ((count + 1) / 2) bytes)
    let weights := (ofNibbles nibbles).take count
    let tree ← Fallible.require Fault.huffmanCode (Tree.ofWeights? weights)
    return (tree, rest)

end Huffman
end Zstd
end ConstStore
