/-
# What can be wrong with a compressed stream

A reader of Zstandard streams stops at the first fault.  The faults are listed by the part of
the format that is violated; `Fault.message` gives each a short text.
-/
import ConstStore.Fallible

namespace ConstStore
namespace Zstd

/-- Why a byte string is not a sequence of Zstandard frames. -/
inductive Fault where
  /-- There is no frame at all. -/
  | noFrame
  /-- The input ends inside a frame. -/
  | truncated
  /-- The four bytes at the start of a frame name no frame format. -/
  | unknownMagic
  /-- A bit that must be zero is set in the frame header. -/
  | reservedBit
  /-- The frame asks for a dictionary. -/
  | dictionary
  /-- The frame asks for more history than a reader keeps. -/
  | windowTooLarge
  /-- The reserved block type is used. -/
  | reservedBlock
  /-- A block is larger than the frame allows. -/
  | blockTooLarge
  /-- The literals of a block cannot be read. -/
  | literals
  /-- A Huffman code description is not a complete code. -/
  | huffmanCode
  /-- A table of symbol counts does not fill its state space. -/
  | symbolCounts
  /-- The sequences of a block cannot be read. -/
  | sequences
  /-- A match reaches back before the start of the frame. -/
  | offset
  /-- There is more content than room for it. -/
  | contentTooLong
  /-- The content is not as long as the frame header says. -/
  | contentSize
  /-- The content does not have the checksum that the frame carries. -/
  | checksum
  deriving Repr, DecidableEq

/-- The wording of a fault. -/
def Fault.message : Fault → String
  | noFrame => "incomplete frame"
  | truncated => "incomplete frame"
  | unknownMagic => "unknown frame descriptor"
  | reservedBit => "unsupported frame parameter"
  | dictionary => "dictionary mismatch"
  | windowTooLarge => "frame requires too much memory for decoding"
  | reservedBlock => "reserved block type"
  | blockTooLarge => "block larger than the frame allows"
  | literals => "corrupt literals section"
  | huffmanCode => "corrupt Huffman code"
  | symbolCounts => "corrupt table of symbol counts"
  | sequences => "corrupt sequences section"
  | offset => "match offset outside the content"
  | contentTooLong => "more content than room for it"
  | contentSize => "content size mismatch"
  | checksum => "restored data does not match checksum"

end Zstd
end ConstStore
