/-
# Reading a stream of frames

A stream is a sequence of frames.  A Zstandard frame has a header, blocks and perhaps a
checksum; a skippable frame holds no content.  A `Decoder` stands between two frames, between
two blocks, inside a stored block, or behind the last block of a frame; `Decoder.step` reads the next
part and returns the content that it yields.

A frame is decoded in one go or block by block, depending on the reader.  In one go, there is no
limit to blocks that are not compressed but the room for the content, and a compressed block is never
empty.  Block by block, the content may not outgrow the buffer that is made for the size that the
header gives, and that size is not looked at when the last block is empty.

* `openFrame_eq_ok`, `readBlock_eq_ok`, `readStored_eq_ok`, `closeFrame_eq_ok`: what parts there are.
* `Decoder.measure_step`: every step makes progress, so reading ends.
* `readAll` reads a whole stream.
* `readUpTo` reads no further than the block that takes the content over a given length, but looks
  on where this block fills the piece that was asked for.
-/
import ConstStore.Zstd.Checksum
import ConstStore.Zstd.Reader

namespace ConstStore
namespace Zstd

/-! ## 1. Positions in a stream -/

/-- A frame between two of its blocks. -/
structure OpenFrame where
  header : FrameHeader
  opening : Opening
  memory : Memory
  content : Array UInt8

namespace OpenFrame

/-- A frame of which no block has been read. -/
def start (header : FrameHeader) (opening : Opening) : OpenFrame := ⟨header, opening, .start, #[]⟩

/-- Whether a block may be announced.  The size of a block of one byte and a count is the count. -/
def admits (frame : OpenFrame) (kind size : Nat) : Bool :=
  match frame.opening, kind with
  | .whole _, 0 | .whole _, 1 => true
  | .streamed _, 1 => max size 1 ≤ frame.header.blockLimit
  | _, _ => size ≤ frame.header.blockLimit

/-- The length that the content may not outgrow, where there is one.  A buffer that the given size
does not fit in is used over and over again. -/
def room? (frame : OpenFrame) : Option Nat :=
  match frame.opening, frame.header.contentSize with
  | .whole room, _ => some room
  | .streamed _, none => none
  | .streamed buffers, some size => if size ≤ buffers.output then some buffers.output else none

/-- The room that is left for a block, in a frame that is decoded in one go. -/
def space? (frame : OpenFrame) : Option Nat :=
  match frame.opening with
  | .whole room => some (room - frame.content.size)
  | .streamed _ => none

/-- Whether the content has the length that the header gives. -/
def sizeAgrees (frame : OpenFrame) : Bool :=
  match frame.header.contentSize with
  | none => true
  | some n => frame.content.size = n

/-- Whether there has been room for the content. -/
def fits (frame : OpenFrame) : Bool := frame.room?.all (frame.content.size ≤ ·)

/-- Whether nothing is looked at behind a last block of this kind and size. -/
def endsUnchecked (frame : OpenFrame) (kind size : Nat) : Bool :=
  !frame.opening.isWhole ∧ size = 0 ∧ kind ≠ 1

/-- Appends content. -/
def grow (frame : OpenFrame) (content : Bytes) : OpenFrame :=
  { frame with content := frame.content.appendList content }

/-- The content that a frame has gained when it is the next one. -/
def gained (frame next : OpenFrame) : Bytes :=
  (next.content.extract frame.content.size next.content.size).toList

end OpenFrame

/-- Where a decoder stands. -/
inductive Stage where
  /-- Between two frames; `started` once a frame has been read. -/
  | between (started : Bool)
  /-- Between two blocks. -/
  | inside (frame : OpenFrame)
  /-- Inside a stored block, of which `left` bytes are left. -/
  | storing (frame : OpenFrame) (left : Nat) (last : Bool)
  /-- Behind the last block. -/
  | closing (frame : OpenFrame)

namespace Stage

/-- The frame that has been opened. -/
def frame? : Stage → Option OpenFrame
  | between _ => none
  | inside frame | storing frame _ _ | closing frame => some frame

/-- The buffers that the decoder has. -/
def buffers (stage : Stage) (present : Buffers) : Buffers :=
  match stage.frame?.map OpenFrame.opening with
  | some (.streamed buffers) => buffers
  | _ => present

end Stage

/-- A part of a stream that has been read. -/
structure Part where
  /-- The number of bytes of input that it takes. -/
  taken : Nat
  content : Bytes
  /-- The input that follows. -/
  rest : Bytes
  /-- Where the decoder stands then. -/
  stage : Stage

/-- The reader that has read a part.  The end of a frame ends a piece that has content. -/
def Reader.after (reader : Reader) (part : Part) : Reader :=
  let reader := reader.take part.taken part.content.length
  { reader with
    buffers := part.stage.buffers reader.buffers
    pieces := if part.stage.frame?.isNone then reader.pieces.finish else reader.pieces }

/-- A position in a stream: the input that is left, what has to come next, and what the stream is
read with. -/
structure Decoder where
  input : Bytes
  stage : Stage
  reader : Reader

namespace Decoder

/-- The start of a stream that should have `limit` bytes of content. -/
def start (limit : Nat) (input : Bytes) : Decoder := ⟨input, .between false, .start limit⟩

/-- A stream may end here: no input is left, and the last frame is complete. -/
def finished : Decoder → Bool
  | ⟨[], .between true, _⟩ => true
  | _ => false

/-! ## 2. Parts -/

/-- Reads the header of the next frame.  A skippable frame has none and is skipped. -/
def readStart (input : Bytes) : Except Fault (Option FrameHeader × Bytes) := do
  let (number, rest) ← Fallible.require Fault.truncated (Bytes.splitNat? 4 input)
  if number = magic then
    let (header, rest) ← FrameHeader.read rest
    return (some header, rest)
  else if number / 16 = skippableMagic / 16 then
    let (size, rest) ← Fallible.require Fault.truncated (Bytes.splitNat? 4 rest)
    let (_, rest) ← Fallible.require Fault.truncated (Bytes.split? size rest)
    return (none, rest)
  else throw .unknownMagic

/-- Starts a frame or skips one. -/
def openFrame (reader : Reader) (input : Bytes) : Except Fault Part := do
  let (header?, rest) ← readStart input
  let taken := input.length - rest.length
  match header? with
  | none => return ⟨taken, [], rest, .between true⟩
  | some header =>
    let opening := reader.opening header taken rest
    Fallible.guard Fault.windowTooLarge (opening.isWhole ∨ header.window ≤ maxWindow)
    return ⟨taken, [], rest, .inside (.start header opening)⟩

/-- What a part yields that turns a frame into the next one. -/
def grown (frame next : OpenFrame) (taken : Nat) (rest : Bytes) (stage : OpenFrame → Stage) :
    Except Fault Part := do
  Fallible.guard Fault.contentTooLong next.fits
  return ⟨taken, frame.gained next, rest, stage next⟩

/-- The end of a block that turns a frame into the next one. -/
def endBlock (frame next : OpenFrame) (last unchecked : Bool) (taken : Nat) (rest : Bytes) :
    Except Fault Part := do
  Fallible.guard Fault.contentSize (!last ∨ next.sizeAgrees ∨ unchecked)
  grown frame next taken rest (if last then .closing else .inside)

/-- A frame with one more block, and what follows the block.  A stored block is only read like that
when it is empty. -/
def decodeBlock (frame : OpenFrame) (kind size : Nat) (input : Bytes) :
    Except Fault (OpenFrame × Bytes) :=
  match kind with
  | 0 => return (frame, input)
  | 1 => do
    let (body, rest) ← Fallible.require Fault.truncated (Bytes.split? 1 input)
    return (frame.grow (body.flatMap (List.replicate size)), rest)
  | _ => do
    let (body, rest) ← Fallible.require Fault.truncated (Bytes.split? size input)
    if size = 0 ∧ !frame.opening.isWhole then return (frame, rest) else
      let (memory, content) ←
        Block.decode frame.header.blockLimit frame.space? frame.memory frame.content body
      return ({ frame with memory, content }, rest)

/-- Reads a block, or just its header when the block is stored. -/
def readBlock (frame : OpenFrame) (input : Bytes) : Except Fault Part := do
  let (head, rest) ← Fallible.require Fault.truncated (Bytes.splitNat? 3 input)
  let last : Bool := head % 2 = 1
  let kind := head / 2 % 4
  let size := head / 8
  Fallible.guard Fault.reservedBlock (kind < 3)
  Fallible.guard Fault.blockTooLarge (frame.admits kind size)
  if kind = 0 ∧ 0 < size then return ⟨3, [], rest, .storing frame size last⟩
  else
    let (next, rest) ← decodeBlock frame kind size rest
    endBlock frame next last (frame.endsUnchecked kind size) (3 + if kind = 1 then 1 else size) rest

/-- How much is read at once of a stored block: as far as there is input, and no further than to the
end of a chunk. -/
def storedCount (atHand left : Nat) (input : Bytes) : Nat := min left (min atHand input.length)

/-- Reads on in a stored block. -/
def readStored (atHand : Nat) (frame : OpenFrame) (left : Nat) (last : Bool) (input : Bytes) :
    Except Fault Part := do
  let count := storedCount atHand left input
  Fallible.guard Fault.truncated (0 < count)
  let next := frame.grow (input.take count)
  if count < left then
    grown frame next count (input.drop count) (.storing · (left - count) last)
  else endBlock frame next last false count (input.drop count)

/-- Ends a frame: its checksum, where it has one, must be that of its content. -/
def closeFrame (frame : OpenFrame) (input : Bytes) : Except Fault Part := do
  if frame.header.checksum then
    let (sum, rest) ← Fallible.require Fault.truncated (Bytes.split? 4 input)
    Fallible.guard Fault.checksum (sum = Checksum.ofContent frame.content.toList)
    return ⟨4, [], rest, .between true⟩
  else return ⟨0, [], input, .between true⟩

/-- The next part of the stream. -/
def part : Decoder → Except Fault Part
  | ⟨[], .between false, _⟩ => .error .noFrame
  | ⟨input, .between _, reader⟩ => openFrame reader input
  | ⟨input, .inside frame, _⟩ => readBlock frame input
  | ⟨input, .storing frame left last, reader⟩ => readStored reader.atHand frame left last input
  | ⟨input, .closing frame, _⟩ => closeFrame frame input

/-- The decoder behind a part. -/
def behind (decoder : Decoder) (part : Part) : Decoder :=
  ⟨part.rest, part.stage, decoder.reader.after part⟩

/-- Reads the next part of the stream and returns the content that it yields. -/
def step (decoder : Decoder) : Except Fault (Bytes × Decoder) :=
  decoder.part.map fun part => (part.content, decoder.behind part)

/-! ## 3. What parts there are -/

section Parts

variable {reader : Reader} {input rest : Bytes} {frame next : OpenFrame} {part : Part}

/-- **How a frame is opened.** -/
theorem openFrame_eq_ok : openFrame reader input = .ok part ↔
    ∃ header? rest, readStart input = .ok (header?, rest) ∧
      match header? with
      | none => part = ⟨input.length - rest.length, [], rest, .between true⟩
      | some header =>
        let opening := reader.opening header (input.length - rest.length) rest
        (opening.isWhole ∨ header.window ≤ maxWindow) ∧
          part = ⟨input.length - rest.length, [], rest, .inside (.start header opening)⟩ := by
  unfold openFrame
  rw [Fallible.bind_eq_ok]
  constructor
  · rintro ⟨⟨header?, rest⟩, hstart, h⟩
    refine ⟨header?, rest, hstart, ?_⟩
    cases header? with
    | none => exact (Fallible.pure_eq_ok.mp h).symm
    | some header =>
      obtain ⟨_, hwindow, h⟩ := Fallible.bind_eq_ok.mp h
      exact ⟨Fallible.guard_eq_ok.mp hwindow, (Fallible.pure_eq_ok.mp h).symm⟩
  · rintro ⟨header?, rest, hstart, h⟩
    refine ⟨(header?, rest), hstart, ?_⟩
    cases header? with
    | none => exact Fallible.pure_eq_ok.mpr h.symm
    | some header =>
      exact Fallible.bind_eq_ok.mpr
        ⟨(), Fallible.guard_eq_ok.mpr h.1, Fallible.pure_eq_ok.mpr h.2.symm⟩

theorem grown_eq_ok {taken : Nat} {stage : OpenFrame → Stage} :
    grown frame next taken rest stage = .ok part ↔
      next.fits ∧ part = ⟨taken, frame.gained next, rest, stage next⟩ := by
  rw [grown, Fallible.bind_eq_ok]
  simp only [Fallible.guard_eq_ok, exists_const, Fallible.pure_eq_ok, eq_comm (b := part)]

/-- **How a block ends.** -/
theorem endBlock_eq_ok {last unchecked : Bool} {taken : Nat} :
    endBlock frame next last unchecked taken rest = .ok part ↔
      (!last ∨ next.sizeAgrees ∨ unchecked) ∧ next.fits ∧
        part = ⟨taken, frame.gained next, rest, (if last then Stage.closing else .inside) next⟩ := by
  rw [endBlock, Fallible.bind_eq_ok]
  simp only [Fallible.guard_eq_ok, exists_const, grown_eq_ok]

/-- **How a block is read**: its header only, where it is stored. -/
theorem readBlock_eq_ok : readBlock frame input = .ok part ↔
    ∃ head rest, Bytes.splitNat? 3 input = some (head, rest) ∧ head / 2 % 4 < 3 ∧
      frame.admits (head / 2 % 4) (head / 8) ∧
      if head / 2 % 4 = 0 ∧ 0 < head / 8 then
        part = ⟨3, [], rest, .storing frame (head / 8) (head % 2 = 1)⟩
      else ∃ next rest', decodeBlock frame (head / 2 % 4) (head / 8) rest = .ok (next, rest') ∧
        endBlock frame next (head % 2 = 1) (frame.endsUnchecked (head / 2 % 4) (head / 8))
          (3 + if head / 2 % 4 = 1 then 1 else head / 8) rest' = .ok part := by
  unfold readBlock
  rw [Fallible.bind_eq_ok]
  constructor
  · rintro ⟨⟨head, rest⟩, hhead, h⟩
    obtain ⟨_, hkind, h⟩ := Fallible.bind_eq_ok.mp h
    obtain ⟨_, hadmits, h⟩ := Fallible.bind_eq_ok.mp h
    refine ⟨head, rest, Fallible.require_eq_ok.mp hhead, Fallible.guard_eq_ok.mp hkind,
      Fallible.guard_eq_ok.mp hadmits, ?_⟩
    simp only at h
    split at h
    · rename_i hstored
      rw [if_pos hstored]
      exact (Fallible.pure_eq_ok.mp h).symm
    · rename_i hstored
      obtain ⟨⟨next, rest'⟩, hblock, h⟩ := Fallible.bind_eq_ok.mp h
      rw [if_neg hstored]
      exact ⟨next, rest', hblock, h⟩
  · rintro ⟨head, rest, hhead, hkind, hadmits, h⟩
    refine ⟨(head, rest), Fallible.require_eq_ok.mpr hhead, ?_⟩
    refine Fallible.bind_eq_ok.mpr ⟨(), Fallible.guard_eq_ok.mpr hkind, ?_⟩
    refine Fallible.bind_eq_ok.mpr ⟨(), Fallible.guard_eq_ok.mpr hadmits, ?_⟩
    simp only
    split at h
    · rename_i hstored
      rw [if_pos hstored, h]
      rfl
    · rename_i hstored
      obtain ⟨next, rest', hblock, h⟩ := h
      rw [if_neg hstored]
      exact Fallible.bind_eq_ok.mpr ⟨(next, rest'), hblock, h⟩

/-- **How a stored block is read on.** -/
theorem readStored_eq_ok {atHand left : Nat} {last : Bool} :
    readStored atHand frame left last input = .ok part ↔
      let count := storedCount atHand left input
      let next := frame.grow (input.take count)
      0 < count ∧ (count = left → !last ∨ next.sizeAgrees) ∧ next.fits ∧
        part = ⟨count, frame.gained next, input.drop count,
          if count < left then .storing next (left - count) last
          else (if last then Stage.closing else .inside) next⟩ := by
  have hle : storedCount atHand left input ≤ left := Nat.min_le_left _ _
  rw [readStored, Fallible.bind_eq_ok]
  simp only [Fallible.guard_eq_ok, exists_const]
  by_cases hlt : storedCount atHand left input < left
  · simp only [if_pos hlt, grown_eq_ok, Nat.ne_of_lt hlt, false_implies, true_and]
  · have heq : storedCount atHand left input = left := Nat.le_antisymm hle (Nat.not_lt.mp hlt)
    simp only [heq, Nat.lt_irrefl, if_false, endBlock_eq_ok, forall_const, Bool.false_eq_true,
      or_false]

/-- **How a frame is closed.** -/
theorem closeFrame_eq_ok : closeFrame frame input = .ok part ↔
    if frame.header.checksum then
      ∃ rest, input = Checksum.ofContent frame.content.toList ++ rest ∧
        part = ⟨4, [], rest, .between true⟩
    else part = ⟨0, [], input, .between true⟩ := by
  unfold closeFrame
  split
  · constructor
    · intro h
      obtain ⟨⟨sum, rest⟩, hsplit, hrest⟩ := Fallible.bind_eq_ok.mp h
      obtain ⟨_, hsum, hpart⟩ := Fallible.bind_eq_ok.mp hrest
      obtain ⟨rfl, -⟩ := Bytes.split?_eq_some_iff.mp (Fallible.require_eq_ok.mp hsplit)
      rw [← (Fallible.guard_eq_ok.mp hsum : sum = _)]
      exact ⟨rest, rfl, (Fallible.pure_eq_ok.mp hpart).symm⟩
    · rintro ⟨rest, rfl, rfl⟩
      have hsplit := Bytes.split?_append rest (Checksum.length_ofContent frame.content.toList)
      refine Fallible.bind_eq_ok.mpr ⟨_, Fallible.require_eq_ok.mpr hsplit, ?_⟩
      exact Fallible.bind_eq_ok.mpr ⟨(), Fallible.guard_eq_ok.mpr rfl, rfl⟩
  · exact ⟨fun h => (Fallible.pure_eq_ok.mp h).symm, fun h => Fallible.pure_eq_ok.mpr h.symm⟩

/-! ## 4. Progress -/

/-- How much there is left to do. -/
def workLeft (input : Bytes) : Stage → Nat
  | .closing _ => 2 * input.length + 1
  | .between _ | .inside _ | .storing .. => 2 * input.length

def measure (decoder : Decoder) : Nat := workLeft decoder.input decoder.stage

theorem workLeft_le (input : Bytes) (stage : Stage) :
    workLeft input stage ≤ 2 * input.length + 1 := by
  cases stage <;> simp [workLeft]

theorem length_of_readStart {header? : Option FrameHeader}
    (h : readStart input = .ok (header?, rest)) : rest.length < input.length := by
  unfold readStart at h
  obtain ⟨⟨number, rest₁⟩, h₁, h⟩ := Fallible.bind_eq_ok.mp h
  have := Bytes.length_of_splitNat? (Fallible.require_eq_ok.mp h₁)
  simp only at h
  split at h
  · obtain ⟨⟨header, rest₂⟩, h₂, h⟩ := Fallible.bind_eq_ok.mp h
    have := FrameHeader.length_of_read h₂
    obtain ⟨-, rfl⟩ : _ ∧ rest₂ = rest := Prod.mk.inj (Fallible.pure_eq_ok.mp h)
    omega
  · split at h
    · obtain ⟨⟨size, rest₂⟩, h₂, h⟩ := Fallible.bind_eq_ok.mp h
      obtain ⟨⟨skipped, rest₃⟩, h₃, h⟩ := Fallible.bind_eq_ok.mp h
      have := Bytes.length_of_splitNat? (Fallible.require_eq_ok.mp h₂)
      have := Bytes.length_of_split? (Fallible.require_eq_ok.mp h₃)
      obtain ⟨-, rfl⟩ : _ ∧ rest₃ = rest := Prod.mk.inj (Fallible.pure_eq_ok.mp h)
      simp only at *
      omega
    · exact absurd h Fallible.throw_ne_ok

theorem workLeft_of_openFrame (h : openFrame reader input = .ok part) :
    workLeft part.rest part.stage < 2 * input.length := by
  obtain ⟨header?, rest, hstart, h⟩ := openFrame_eq_ok.mp h
  have := length_of_readStart hstart
  cases header? with
  | none =>
    simp only [h, workLeft]
    omega
  | some header =>
    simp only [h.2, workLeft]
    omega

theorem length_of_decodeBlock {kind size : Nat}
    (h : decodeBlock frame kind size input = .ok (next, rest)) : rest.length ≤ input.length := by
  unfold decodeBlock at h
  split at h
  · obtain ⟨-, rfl⟩ := Prod.mk.inj (Fallible.pure_eq_ok.mp h)
    exact Nat.le_refl _
  · obtain ⟨⟨body, rest₁⟩, h₁, h⟩ := Fallible.bind_eq_ok.mp h
    have := Bytes.length_of_split? (Fallible.require_eq_ok.mp h₁)
    obtain ⟨-, rfl⟩ := Prod.mk.inj (Fallible.pure_eq_ok.mp h)
    omega
  · obtain ⟨⟨body, rest₁⟩, h₁, h⟩ := Fallible.bind_eq_ok.mp h
    have := Bytes.length_of_split? (Fallible.require_eq_ok.mp h₁)
    simp only at h
    split at h
    · obtain ⟨-, rfl⟩ := Prod.mk.inj (Fallible.pure_eq_ok.mp h)
      omega
    · obtain ⟨_, -, h⟩ := Fallible.bind_eq_ok.mp h
      obtain ⟨-, rfl⟩ := Prod.mk.inj (Fallible.pure_eq_ok.mp h)
      omega

theorem workLeft_of_readBlock (h : readBlock frame input = .ok part) :
    workLeft part.rest part.stage < 2 * input.length := by
  obtain ⟨head, rest, hsplit, -, -, h⟩ := readBlock_eq_ok.mp h
  have := Bytes.length_of_splitNat? hsplit
  have hrest : part.rest.length ≤ rest.length := by
    split at h
    · simp only [h, Nat.le_refl]
    · obtain ⟨next, rest', hblock, h⟩ := h
      rw [(endBlock_eq_ok.mp h).2.2]
      exact length_of_decodeBlock hblock
  have := workLeft_le part.rest part.stage
  omega

theorem workLeft_of_readStored {atHand left : Nat} {last : Bool}
    (h : readStored atHand frame left last input = .ok part) :
    workLeft part.rest part.stage < 2 * input.length := by
  obtain ⟨hpos, -, -, rfl⟩ := readStored_eq_ok.mp h
  refine Nat.lt_of_le_of_lt (workLeft_le _ _) ?_
  simp only [List.length_drop, storedCount] at *
  omega

theorem workLeft_of_closeFrame (h : closeFrame frame input = .ok part) :
    workLeft part.rest part.stage ≤ 2 * input.length := by
  have h := closeFrame_eq_ok.mp h
  split at h
  · obtain ⟨rest, rfl, rfl⟩ := h
    simp only [workLeft, List.length_append]
    omega
  · rw [h]
    exact Nat.le_refl _

/-- **Every part makes progress.** -/
theorem workLeft_of_part {decoder : Decoder} (h : decoder.part = .ok part) :
    workLeft part.rest part.stage < decoder.measure := by
  unfold Decoder.part at h
  split at h
  · simp at h
  · exact workLeft_of_openFrame h
  · exact workLeft_of_readBlock h
  · exact workLeft_of_readStored h
  · exact Nat.lt_succ_of_le (workLeft_of_closeFrame h)

end Parts

/-- **Every step makes progress.** -/
theorem measure_step {decoder next : Decoder} {content : Bytes}
    (h : decoder.step = .ok (content, next)) : next.measure < decoder.measure := by
  obtain ⟨part, hpart, heq⟩ := Fallible.map_eq_ok.mp h
  obtain ⟨-, rfl⟩ := Prod.mk.inj heq
  exact workLeft_of_part hpart

/-! ## 5. Reading to an end -/

/-- The content of the rest of the stream. -/
def readAll (decoder : Decoder) : Except Fault Bytes :=
  if decoder.finished then .ok []
  else match _h : decoder.step with
    | .error fault => .error fault
    | .ok (content, next) => next.readAll.map (content ++ ·)
  termination_by decoder.measure
  decreasing_by exact measure_step _h

/-! ## 6. Reading with a limit -/

/-- A decoder goes on inside a frame until there is content or the frame is over, and stops at a
fault.  Where the input ends before that, nothing is wrong yet. -/
def scan (decoder : Decoder) : Except Fault Unit :=
  match decoder.stage with
  | .between _ => .ok ()
  | .inside _ | .storing .. | .closing _ =>
    match _h : decoder.step with
    | .error .truncated => .ok ()
    | .error fault => .error fault
    | .ok ([], next) => next.scan
    | .ok (_ :: _, _) => .ok ()
  termination_by decoder.measure
  decreasing_by all_goals exact measure_step _h

/-- The decoder with no more input than is left of the chunk that has been read last. -/
def cut (decoder : Decoder) : Decoder :=
  { decoder with input := decoder.input.take (decoder.reader.atHand % chunkSize) }

/-- What a decoder does behind content that fills the piece that was asked for: it looks on in the
input that is at hand. -/
def lookOn (decoder : Decoder) : Except Fault Unit :=
  if decoder.reader.pieces.isFull then decoder.cut.scan else .ok ()

/-- The number of bytes that are still taken, up to one past the limit. -/
def left (decoder : Decoder) : Nat := decoder.reader.pieces.limit + 1 - decoder.reader.pieces.done

/-- The content of the rest of the stream, as far as one byte past the limit.  Nothing behind the
block with the last of the bytes is looked at, unless the decoder looks on. -/
def readUpTo (decoder : Decoder) : Except Fault Bytes :=
  if decoder.finished then .ok []
  else match _h : decoder.step with
    | .error fault => .error fault
    | .ok (content, next) =>
      if content.length < decoder.left then next.readUpTo.map (content ++ ·)
      else next.lookOn.map fun _ => content.take decoder.left
  termination_by decoder.measure
  decreasing_by exact measure_step _h

end Decoder

/-- The content of a whole stream of frames, decoded as for a reader that expects `limit` bytes. -/
def decode (limit : Nat) (stream : Bytes) : Except Fault Bytes :=
  (Decoder.start limit stream).readAll

/-- The content of a stream of frames as far as `limit + 1` bytes. -/
def decodeUpTo (limit : Nat) (stream : Bytes) : Except Fault Bytes :=
  (Decoder.start limit stream).readUpTo

end Zstd
end ConstStore
