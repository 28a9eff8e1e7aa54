/-
# Writing a frame

`encode` writes a byte string as one frame: a header, blocks of at most 128 KiB, and the content
checksum.  A block whose bytes are all equal is stored as one byte and a count; any other block is
stored as it is.  The level says how much effort is worth while: at a negative level nothing is
searched for and every block is stored as it is.
-/
import ConstStore.Zstd.Decoder

namespace ConstStore
namespace Zstd

/-- How much effort to spend on a small frame. -/
abbrev Level := Int

namespace Encoder

/-- The header of a frame with a checksum, a window of 128 KiB and no content size. -/
def header : Bytes := Bytes.ofNat 4 magic ++ [0x04, 0x38]

/-- The three bytes in front of a block. -/
def blockHeader (last : Bool) (kind size : Nat) : Bytes :=
  Bytes.ofNat 3 (last.toNat + 2 * kind + 8 * size)

/-- The byte that fills a block of more than one byte, if there is one. -/
def filling? : Bytes → Option UInt8
  | b :: c :: rest => if (c :: rest).all (· == b) then some b else none
  | _ => none

/-- One block with this content. -/
def block (level : Level) (last : Bool) (content : Bytes) : Bytes :=
  match if level < 0 then none else filling? content with
  | some b => blockHeader last 1 content.length ++ [b]
  | none => blockHeader last 0 content.length ++ content

/-- The blocks of a frame with this content; the last one is marked. -/
def blocks (level : Level) (content : Bytes) : Bytes :=
  if content.length ≤ Block.maxSize then block level true content
  else block level false (content.take Block.maxSize) ++
    blocks level (content.drop Block.maxSize)
  termination_by content.length
  decreasing_by
    simp only [List.length_drop, Block.maxSize] at *
    omega

end Encoder

/-- A frame with this content. -/
def encode (level : Level) (content : Bytes) : Bytes :=
  Encoder.header ++ Encoder.blocks level content ++ Checksum.ofContent content

end Zstd
end ConstStore
