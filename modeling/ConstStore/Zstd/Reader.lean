/-
# How a stream is read

A decoder is not given a stream at once, and its content is not taken at once.  The input comes in
chunks.  The content goes to the end of a buffer that grows, and is asked for in pieces, until there
is one byte more than there should be.  A decoder that has content for more than a piece keeps it in
a buffer of its own.

None of that shows in the content of a sound stream.  But a frame that says how long its content is,
fits into the piece that is asked for, and is at hand as a whole, is decoded in one go; and other
things are wrong with a frame then than with one that is decoded block by block (`Opening`).

* `Pieces`: the pieces that are asked for, one after the other.
* `Buffers`: the buffers of a decoder, which it keeps from one frame to the next.
* `Reader`: both, and how much of the input has been taken.
-/
import ConstStore.Zstd.FrameHeader

namespace ConstStore
namespace Zstd

/-! ## 1. Pieces of content -/

/-- The size of the largest buffer that is made before there is any content. -/
def maxCapacity : Nat := 1 <<< 20

/-- The size of the pieces that are asked for at first. -/
def pieceSize : Nat := 8192

/-- The size of a piece that is only to show whether there is more content. -/
def probeSize : Nat := 32

/-- What is asked for of a content that should have `limit` bytes. -/
structure Pieces where
  limit : Nat
  /-- The size of the buffer. -/
  capacity : Nat
  /-- The size of the largest piece. -/
  most : Nat
  /-- The number of bytes that there are. -/
  done : Nat
  /-- Where the present piece starts. -/
  start : Nat
  /-- Where it ends. -/
  stop : Nat
  stop_le : stop ≤ max start (limit + 1)

namespace Pieces

/-- The size of the next piece, without regard to the limit.  A buffer that was too small to start
with, or is full as it was made, is not enlarged before there is more content. -/
def wanted (pieces : Pieces) : Nat :=
  if pieces.done = min pieces.limit maxCapacity ∨ pieces.done = 0 ∧ pieces.limit < probeSize then
    probeSize
  else min (pieces.capacity - pieces.done) pieces.most

/-- Asks for the next piece.  A full buffer is doubled, and so is the size of the largest piece when
such a piece has been filled. -/
def next (pieces : Pieces) : Pieces :=
  let filled := pieces.done - pieces.start = pieces.most
  let pieces := { pieces with
    most := if filled then 2 * pieces.most else pieces.most
    capacity := if pieces.done < pieces.capacity then pieces.capacity else 2 * pieces.capacity }
  let size := min pieces.wanted (pieces.limit + 1 - pieces.done)
  { pieces with
    start := pieces.done
    stop := pieces.done + size
    stop_le := by omega }

/-- The first piece. -/
def first (limit : Nat) : Pieces :=
  next ⟨limit, min limit maxCapacity, pieceSize, 0, 0, 0, by omega⟩

/-- The room that is left in the present piece. -/
def room (pieces : Pieces) : Nat := pieces.stop - pieces.done

/-- Whether the present piece has been filled. -/
def isFull (pieces : Pieces) : Bool := pieces.start < pieces.done ∧ pieces.done = pieces.stop

/-- Ends a piece that has content. -/
def finish (pieces : Pieces) : Pieces :=
  if pieces.start < pieces.done then pieces.next else pieces

/-- Content that a decoder has kept is handed out, in pieces that nothing else goes to. -/
def drain (count : Nat) (pieces : Pieces) : Pieces :=
  if count = 0 then pieces.next
  else
    let given := min count pieces.next.room
    if given = 0 then { pieces with done := pieces.done + count }
    else drain (count - given) { pieces.next with done := pieces.next.done + given }
  termination_by count
  decreasing_by omega

/-- Hands out content.  What the present piece has no room for is kept until the next ones. -/
def give (count : Nat) (pieces : Pieces) : Pieces :=
  let given := min count pieces.room
  let filled := { pieces with done := pieces.done + given }
  if given = count then filled else drain (count - given) filled

end Pieces

/-! ## 2. Buffers -/

/-- The buffers that a decoder has for blocks and for content, and for how many frames in a row they
have been far too large. -/
structure Buffers where
  input : Nat
  output : Nat
  oversized : Nat
  deriving Repr, DecidableEq

namespace Buffers

def none : Buffers := ⟨0, 0, 0⟩

/-- The buffer that a frame needs for its content: all of it, or the history and two blocks. -/
def neededOutput (header : FrameHeader) : Nat :=
  let window := max header.window 1024
  let ring := window + 2 * min window Block.maxSize + 64
  match header.contentSize with
  | .none => ring
  | some size => min size ring

/-- The buffers for a frame.  They are made anew where they are too small, or have long been too
large. -/
def fit (buffers : Buffers) (header : FrameHeader) : Buffers :=
  let input := max header.blockLimit 4
  let output := neededOutput header
  let oversized :=
    if 3 * (input + output) ≤ buffers.input + buffers.output then buffers.oversized + 1 else 0
  if buffers.input < input ∨ buffers.output < output ∨ 128 ≤ oversized then
    ⟨input, output, oversized⟩
  else { buffers with oversized }

end Buffers

/-- How a frame is decoded. -/
inductive Opening where
  /-- In one go, straight to the piece that is asked for, which has this room. -/
  | whole (room : Nat)
  /-- Block by block, by way of buffers. -/
  | streamed (buffers : Buffers)
  deriving Repr, DecidableEq

def Opening.isWhole : Opening → Bool
  | whole _ => true
  | streamed _ => false

/-! ## 3. Readers -/

/-- The size of a chunk of input. -/
def chunkSize : Nat := 131075

/-- What a stream is read with. -/
structure Reader where
  pieces : Pieces
  buffers : Buffers
  /-- The number of bytes of input that have been taken. -/
  position : Nat

namespace Reader

def start (limit : Nat) : Reader := ⟨.first limit, .none, 0⟩

/-- The number of bytes of input that are at hand, once there are any. -/
def atHand (reader : Reader) : Nat := chunkSize - reader.position % chunkSize

/-- How a frame with this header is decoded, behind which the input is `rest`.  The header takes
`size` bytes. -/
def opening (reader : Reader) (header : FrameHeader) (size : Nat) (rest : Bytes) : Opening :=
  match header.contentSize with
  | none => .streamed (reader.buffers.fit header)
  | some length =>
    if length ≤ reader.pieces.room
        ∧ FrameHeader.isComplete header.checksum (rest.take (reader.atHand - size)) then
      .whole reader.pieces.room
    else .streamed (reader.buffers.fit header)

/-- Takes input that yields nothing.  A piece that has content ends with a chunk. -/
def skip (reader : Reader) (taken : Nat) : Reader :=
  { reader with
    pieces := if taken < reader.atHand then reader.pieces else reader.pieces.finish
    position := reader.position + taken }

/-- Takes input that yields content with its last byte. -/
def take (reader : Reader) (taken count : Nat) : Reader :=
  if taken = 0 then reader
  else
    let reader := reader.skip (taken - 1)
    { reader with pieces := reader.pieces.give count }.skip 1

end Reader
end Zstd
end ConstStore
