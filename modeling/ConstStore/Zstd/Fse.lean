/-
# Tables of finite state entropy coding

An FSE table has `2 ^ log` states.  Each state stands for a symbol and says how to find the next
state: read some bits and add them to a base.  A symbol that is more frequent has more states.

A table is described by the number of states of each symbol (`Counts`).  A count of -1 stands
for a symbol too rare for a state of its own share; it gets one state at the end of the table
and restarts the decoder with a full `log` bits.

* `readCounts` reads a description from a forward bit stream.
* `Table.ofCounts` lays the symbols out over the states and computes the transitions.
-/
import ConstStore.Zstd.Bits
import ConstStore.Zstd.Fault

namespace ConstStore
namespace Zstd
namespace Fse

/-! ## 1. Tables -/

/-- A state: its symbol, and the next state as `base` plus a number of `bits` bits. -/
structure Cell where
  symbol : Nat
  bits : Nat
  base : Nat
  deriving Repr, DecidableEq, Inhabited

/-- A decoding table of `2 ^ log` states. -/
structure Table where
  log : Nat
  cells : Array Cell
  deriving Repr

/-- The table that knows one symbol and needs no bits. -/
def Table.single (symbol : Nat) : Table := ⟨0, #[⟨symbol, 0, 0⟩]⟩

/-- How many states each symbol has, in the order of the symbols; -1 for a rare one. -/
abbrev Counts := List Int

/-- The symbols with their counts. -/
def Counts.indexed (counts : Counts) : List (Nat × Int) :=
  (List.range counts.length).zip counts

/-- The rare symbols, in the order of the symbols.  They take the last states, from the end. -/
def Counts.rare (counts : Counts) : List Nat :=
  (counts.indexed.filter fun (_, n) => n = -1).map (·.1)

/-- Each other symbol, as often as it has states. -/
def Counts.repeated (counts : Counts) : List Nat :=
  counts.indexed.flatMap fun (s, n) => List.replicate n.toNat s

/-- The states in the order in which the frequent symbols are dealt out: steps of a fixed length
around the table, leaving out the last `reserved` states. -/
def dealOrder (log reserved : Nat) : List Nat :=
  let size := 1 <<< log
  let step := size / 2 + size / 8 + 3
  ((List.range size).map fun i => i * step % size).filter (· < size - reserved)

/-- The symbol of each state. -/
def layout (log : Nat) (counts : Counts) : Array Nat :=
  let size := 1 <<< log
  let rare := counts.rare
  let blank := Array.replicate size 0
  let withRare := (rare.zip (List.range rare.length)).foldl
    (fun cells (s, i) => cells.setIfInBounds (size - 1 - i) s) blank
  ((dealOrder log rare.length).zip counts.repeated).foldl
    (fun cells (state, s) => cells.setIfInBounds state s) withRare

/-- The states of a symbol are numbered from its count upwards.  State number `n` covers the
numbers from `n * 2 ^ bits - size` on, where `bits` fills `n` up to the size of the table. -/
def Table.ofCounts (log : Nat) (counts : Counts) : Table :=
  let size := 1 <<< log
  let start := (counts.map fun n => if n = -1 then 1 else n.toNat).toArray
  let deal := fun (cells, next) symbol =>
    let n := Array.getD next symbol 0
    let bits := log - n.log2
    (Array.push cells (Cell.mk symbol bits ((n <<< bits) - size)),
      next.setIfInBounds symbol (n + 1))
  ⟨log, ((layout log counts).foldl deal (#[], start)).1⟩

/-- The cell of a state. -/
def Table.cell (table : Table) (state : Nat) : Cell := table.cells.getD state default

/-- The first state is a number of `log` bits. -/
def Table.start? (table : Table) (bits : List Bool) : Option (Nat × List Bool) :=
  Bits.readHigh table.log bits

/-- The state after `state`; `none` when the stream has too few bits left. -/
def Table.next? (table : Table) (state : Nat) (bits : List Bool) : Option (Nat × List Bool) :=
  let cell := table.cell state
  (Bits.readHigh cell.bits bits).map fun (v, rest) => (cell.base + v, rest)

/-! ## 2. Reading a description -/

/-- A count below `left` is written with the fewest bits that tell `left + 1` values apart, the
small values with one bit less where that is possible.  The value read is the count plus one. -/
def readShare? (left : Nat) (bits : List Bool) : Option (Nat × List Bool) := do
  let low := (left + 1).log2
  let short := (1 <<< (low + 1)) - 1 - (left + 1)
  let (v, bits) ← Bits.readLow low bits
  if v < short then
    return (v, bits)
  let (b, bits) ← Bits.readLow 1 bits
  let w := v + (b <<< low)
  return (if 1 <<< low ≤ w then w - short else w, bits)

/-- After a symbol without states, two bits say how many of the next symbols have none either;
three such symbols mean that two more bits follow. -/
def readBlanks? : List Bool → Option (Nat × List Bool)
  | a :: b :: bits =>
    let n := a.toNat + 2 * b.toNat
    if n = 3 then (readBlanks? bits).map fun (m, rest) => (3 + m, rest) else some (n, bits)
  | _ => none

/-- Reads counts until `left` states are shared out.  `room` bounds the number of symbols, the next
`blanks` of them have no states, and `counts` holds the counts read so far, the last one first. -/
def readShares? (room left blanks : Nat) (counts : Counts) (bits : List Bool) :
    Option (Counts × List Bool) :=
  if left = 0 then some (counts.reverse, bits) else
  match room, blanks with
  | 0, _ => none
  | room + 1, blanks + 1 => readShares? room left blanks (0 :: counts) bits
  | room + 1, 0 => do
    let (v, bits) ← readShare? left bits
    if v = 1 then
      let (blanks, bits) ← readBlanks? bits
      readShares? room left blanks (0 :: counts) bits
    else
      readShares? room (left - max 1 (v - 1)) 0 (((v : Int) - 1) :: counts) bits

/-- A description of a table: its `log` and counts, and the number of whole bytes it takes. -/
structure Description where
  log : Nat
  counts : Counts
  size : Nat
  deriving Repr

/-- Reads the description of a table of at most `2 ^ maxLog` states and at most `symbols`
symbols. -/
def readCounts (maxLog symbols : Nat) (bytes : Bytes) : Except Fault Description := do
  let bits := Bits.forward bytes
  let (v, rest) ← Fallible.require Fault.symbolCounts (Bits.readLow 4 bits)
  let log := v + 5
  Fallible.guard Fault.symbolCounts (log ≤ maxLog)
  let (counts, rest) ←
    Fallible.require Fault.symbolCounts (readShares? symbols (1 <<< log) 0 [] rest)
  return ⟨log, counts, (bits.length - rest.length + 7) / 8⟩

end Fse
end Zstd
end ConstStore
