/-
# The sequences section of a block

Behind its literals a block holds sequences.  A sequence says: take so many literals, then copy
so many bytes from so far back.  What literals are left after the last sequence ends the block.

The three numbers of a sequence are coded by three FSE tables over one backward stream.  A code
stands for a base and a number of extra bits (`Alphabet`).  Offsets 1 to 3 are not distances:
they name one of the distances used last (`Recent`).

* `Sequences.readCount?` and `Sequences.readTables` read the section's header: the number of
  sequences and the three tables.
* `Run.sequences` runs the sequences.
-/
import ConstStore.Zstd.Fse

namespace ConstStore
namespace Zstd

/-! ## 1. Alphabets of codes -/

/-- The codes of one of the three numbers: the base and the extra bits of each code, and how its
tables are described. -/
structure Alphabet where
  /-- Base and number of extra bits, by code. -/
  values : Array (Nat × Nat)
  /-- The largest `log` of a described table. -/
  maxLog : Nat
  /-- The table that needs no description. -/
  predefined : Fse.Table

namespace Alphabet

/-- `count` codes, each with one base and no extra bits, from `first` on. -/
def plain (first count : Nat) : List (Nat × Nat) :=
  (List.range count).map fun i => (first + i, 0)

def literalLength : Alphabet where
  values := (plain 0 16 ++
    [(16, 1), (18, 1), (20, 1), (22, 1), (24, 2), (28, 2), (32, 3), (40, 3), (48, 4), (64, 6),
     (128, 7), (256, 8), (512, 9), (1024, 10), (2048, 11), (4096, 12), (8192, 13), (16384, 14),
     (32768, 15), (65536, 16)]).toArray
  maxLog := 9
  predefined := Fse.Table.ofCounts 6
    [4, 3, 2, 2, 2, 2, 2, 2, 2, 2, 2, 2, 2, 1, 1, 1, 2, 2, 2, 2, 2, 2, 2, 2, 2, 3, 2, 1, 1, 1, 1,
     1, -1, -1, -1, -1]

def matchLength : Alphabet where
  values := (plain 3 32 ++
    [(35, 1), (37, 1), (39, 1), (41, 1), (43, 2), (47, 2), (51, 3), (59, 3), (67, 4), (83, 4),
     (99, 5), (131, 7), (259, 8), (515, 9), (1027, 10), (2051, 11), (4099, 12), (8195, 13),
     (16387, 14), (32771, 15), (65539, 16)]).toArray
  maxLog := 9
  predefined := Fse.Table.ofCounts 6
    [1, 4, 3, 2, 2, 2, 2, 2, 2, 1, 1, 1, 1, 1, 1, 1, 1, 1, 1, 1, 1, 1, 1, 1, 1, 1, 1, 1, 1, 1, 1,
     1, 1, 1, 1, 1, 1, 1, 1, 1, 1, 1, 1, 1, 1, 1, -1, -1, -1, -1, -1, -1, -1]

/-- Offset code `n` has `n` extra bits. -/
def offset : Alphabet where
  values := ((List.range 32).map fun n => (1 <<< n, n)).toArray
  maxLog := 8
  predefined := Fse.Table.ofCounts 5
    [1, 1, 1, 1, 1, 1, 2, 2, 2, 1, 1, 1, 1, 1, 1, 1, 1, 1, 1, 1, 1, 1, 1, 1, -1, -1, -1, -1, -1]

/-- The number that a code and its extra bits stand for. -/
def readValue? (alphabet : Alphabet) (code : Nat) (bits : List Bool) :
    Option (Nat × List Bool) := do
  let (base, extra) ← alphabet.values[code]?
  let (v, bits) ← Bits.readHigh extra bits
  return (base + v, bits)

/-- Reads a table in one of the four ways to give one: predefined, a single code, a
description, or the table of the last block with sequences. -/
def readTable (alphabet : Alphabet) (way : Nat) (last : Option Fse.Table) (bytes : Bytes) :
    Except Fault (Fse.Table × Bytes) := do
  match way with
  | 0 => return (alphabet.predefined, bytes)
  | 1 =>
    let (code, rest) ← Fallible.require Fault.sequences (Bytes.splitNat? 1 bytes)
    Fallible.guard Fault.sequences (code < alphabet.values.size)
    return (.single code, rest)
  | 2 =>
    let description ← Fse.readCounts alphabet.maxLog alphabet.values.size bytes
    let (_, rest) ← Fallible.require Fault.sequences (Bytes.split? description.size bytes)
    return (.ofCounts description.log description.counts, rest)
  | _ => (Fallible.require Fault.sequences last).map (·, bytes)

end Alphabet

/-! ## 2. The header of the section -/

/-- The tables of a block with sequences. -/
structure Tables where
  literalLength : Fse.Table
  offset : Fse.Table
  matchLength : Fse.Table

namespace Sequences

/-- The number of sequences, in one to three bytes. -/
def readCount? (bytes : Bytes) : Option (Nat × Bytes) := do
  let (n, rest) ← Bytes.splitNat? 1 bytes
  if n < 128 then
    return (n, rest)
  else if n < 255 then
    let (low, rest) ← Bytes.splitNat? 1 rest
    return ((n - 128) * 256 + low, rest)
  else
    let (n, rest) ← Bytes.splitNat? 2 rest
    return (n + 0x7f00, rest)

/-- The tables, behind a byte that says how each is given.  Its lowest two bits are zero. -/
def readTables (last : Option Tables) (bytes : Bytes) : Except Fault (Tables × Bytes) := do
  let (ways, bytes) ← Fallible.require Fault.sequences (Bytes.splitNat? 1 bytes)
  Fallible.guard Fault.sequences (ways % 4 = 0)
  let (literalLength, bytes) ←
    Alphabet.literalLength.readTable (ways / 64) (last.map (·.literalLength)) bytes
  let (offset, bytes) ← Alphabet.offset.readTable (ways / 16 % 4) (last.map (·.offset)) bytes
  let (matchLength, bytes) ←
    Alphabet.matchLength.readTable (ways / 4 % 4) (last.map (·.matchLength)) bytes
  return (⟨literalLength, offset, matchLength⟩, bytes)

end Sequences

/-! ## 3. Distances -/

/-- The last three distances, the latest first. -/
structure Recent where
  first : Nat
  second : Nat
  third : Nat
  deriving Repr, DecidableEq

/-- The distances that a frame starts with. -/
def Recent.start : Recent := ⟨1, 4, 8⟩

/-- The distance that an offset value means.  Above 3 it is the value less 3.  The values 1 to 3
name a recent distance; directly after another match they are counted one further, and the
fourth is the latest one less 1. -/
def Recent.resolve (recent : Recent) (value : Nat) (afterMatch : Bool) : Nat × Recent :=
  if 3 < value then (value - 3, ⟨value - 3, recent.first, recent.second⟩)
  else match value + afterMatch.toNat with
  | 0 | 1 => (recent.first, recent)
  | 2 => (recent.second, ⟨recent.second, recent.first, recent.third⟩)
  | 3 => (recent.third, ⟨recent.third, recent.first, recent.second⟩)
  | _ => (recent.first - 1, ⟨recent.first - 1, recent.first, recent.second⟩)

/-! ## 4. Running the sequences -/

/-- Appends `n` bytes, each a copy of the one `distance` back, which may be one of those just
copied. -/
def copyBack (distance : Nat) : (n : Nat) → Array UInt8 → Array UInt8
  | 0, out => out
  | n + 1, out => copyBack distance n (out.push (out.getD (out.size - distance) 0))

/-- Where a run through the sequences stands: the states of the three tables, the unread bits
and literals, the recent distances and the content so far. -/
structure Run where
  literalLength : Nat
  offset : Nat
  matchLength : Nat
  bits : List Bool
  literals : Bytes
  recent : Recent
  out : Array UInt8

namespace Run

/-- The three numbers of the next sequence: literals to take, bytes to copy, offset value. -/
def readNumbers? (tables : Tables) (run : Run) :
    Option (Nat × Nat × Nat × List Bool) := do
  let (value, bits) ←
    Alphabet.offset.readValue? (tables.offset.cell run.offset).symbol run.bits
  let (copied, bits) ←
    Alphabet.matchLength.readValue? (tables.matchLength.cell run.matchLength).symbol bits
  let (taken, bits) ←
    Alphabet.literalLength.readValue? (tables.literalLength.cell run.literalLength).symbol bits
  return (taken, copied, value, bits)

/-- Moves the three tables on. -/
def advance? (tables : Tables) (run : Run) : Option Run := do
  let (literalLength, bits) ← tables.literalLength.next? run.literalLength run.bits
  let (matchLength, bits) ← tables.matchLength.next? run.matchLength bits
  let (offset, bits) ← tables.offset.next? run.offset bits
  return { run with literalLength, matchLength, offset, bits }

/-- Takes literals and copies a match.  The content must not grow beyond `limit`. -/
def apply (limit taken copied value : Nat) (run : Run) : Except Fault Run := do
  let ⟨literalLength, offset, matchLength, bits, literals, recent, out⟩ := run
  let (front, literals) ← Fallible.require Fault.sequences (Bytes.split? taken literals)
  Fallible.guard Fault.blockTooLarge (out.size + taken + copied ≤ limit)
  let out := out.appendList front
  let (distance, recent) := recent.resolve value (taken = 0)
  Fallible.guard Fault.offset (0 < distance ∧ distance ≤ out.size)
  return ⟨literalLength, offset, matchLength, bits, literals, recent, copyBack distance copied out⟩

/-- Runs `n` sequences.  The tables are not moved on behind the last one. -/
def sequences (tables : Tables) (limit : Nat) : (n : Nat) → Run → Except Fault Run
  | 0, run => .ok run
  | n + 1, run => do
    let (taken, copied, value, bits) ← Fallible.require Fault.sequences (run.readNumbers? tables)
    let run ← { run with bits }.apply limit taken copied value
    if n = 0 then
      return run
    else
      let run ← Fallible.require Fault.sequences (run.advance? tables)
      sequences tables limit n run

/-- The start of a run over a stream. -/
def start? (tables : Tables) (stream literals : Bytes) (recent : Recent) (out : Array UInt8) :
    Option Run := do
  let bits ← Bits.backward? stream
  let (literalLength, bits) ← tables.literalLength.start? bits
  let (offset, bits) ← tables.offset.start? bits
  let (matchLength, bits) ← tables.matchLength.start? bits
  return ⟨literalLength, offset, matchLength, bits, literals, recent, out⟩

end Run
end Zstd
end ConstStore
