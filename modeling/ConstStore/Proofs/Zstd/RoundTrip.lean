/-
# Reading back a frame

What the encoder writes for a byte string is read back as that byte string.  No header that it
writes gives a content size, so its frames are opened in one way only, and there is nothing that
their content could outgrow.  The statements follow the recursion of `Encoder.blocks`; a stored block
is read as far as the next chunk of the input, again and again.

* `blocks_stored`: a stored block yields what is stored.
* `blocks_blocks`: the blocks of a content yield the content.
* `isFrame_encode`: what is written is a frame with the content that it was written for.
* `decode_encode`: so decoding undoes encoding.
* `decompress_of_decode`: what `decompress` makes of a stream that can be read, for every length.
-/
import ConstStore.Compression
import ConstStore.Proofs.Zstd.Frame
import Mathlib.Tactic.NormNum

namespace ConstStore
namespace Zstd

namespace Encoder

/-! ## 1. The frame header -/

/-- The header of every frame that is written, as it is read. -/
def frameHeader : FrameHeader := ⟨128 * 1024, none, true⟩

theorem splitNat?_magic (rest : Bytes) :
    Bytes.splitNat? 4 (Bytes.ofNat 4 magic ++ rest) = some (magic, rest) := by
  have hlt : magic < Bytes.capacity 4 := by decide
  rw [Bytes.splitNat?, Bytes.split?_append rest (Bytes.length_ofNat 4 magic)]
  simp only [Option.map_some, Bytes.toNat_ofNat, Nat.mod_eq_of_lt hlt]

/-- A checksum, and a window in a byte of its own. -/
theorem read_header (rest : Bytes) :
    FrameHeader.read (0x04 :: 0x38 :: rest) = .ok (frameHeader, rest) := by
  have hflags : Bytes.splitNat? 1 (0x04 :: 0x38 :: rest) = some (4, 0x38 :: rest) := rfl
  have hwindow : FrameHeader.readWindow? false (0x38 :: rest)
      = some (some (128 * 1024), rest) := by
    rw [show 128 * 1024 = FrameHeader.windowOf 56 by decide]
    rfl
  have hdictionary : Bytes.splitNat? 0 rest = some (0, rest) := rfl
  have hsize : FrameHeader.readContentSize? 0 false rest = some (none, rest) := rfl
  simp only [FrameHeader.read, hflags, Fallible.require, Fallible.guard, bind, Except.bind]
  norm_num [hwindow, hdictionary, hsize, frameHeader, pure, Except.pure, maxWindowLog,
    Nat.shiftLeft_eq]

theorem readStart_header (rest : Bytes) :
    Decoder.readStart (header ++ rest) = .ok (some frameHeader, rest) := by
  rw [header, List.append_assoc, Decoder.readStart, splitNat?_magic]
  simp only [Fallible.require, bind, Except.bind, List.cons_append, List.nil_append, read_header]
  rfl

/-! ## 2. Plain frames -/

/-- A frame that has such a header, and is decoded block by block. -/
structure Plain (frame : OpenFrame) : Prop where
  header : frame.header = frameHeader
  streamed : ∃ buffers, frame.opening = .streamed buffers

namespace Plain

variable {frame : OpenFrame} {content : Bytes}

theorem grow (h : Plain frame) (content : Bytes) : Plain (frame.grow content) :=
  ⟨h.header, h.streamed⟩

/-- There is nothing that the content could outgrow. -/
theorem fits (h : Plain frame) : frame.fits = true := by
  obtain ⟨buffers, hopening⟩ := h.streamed
  rw [OpenFrame.fits, OpenFrame.room?, hopening, h.header]
  rfl

/-- There is no size that it could miss. -/
theorem sizeAgrees (h : Plain frame) : frame.sizeAgrees = true := by
  rw [OpenFrame.sizeAgrees, h.header]
  rfl

/-- Every block that is written may be announced. -/
theorem admits (h : Plain frame) {kind size : Nat} (hs : size ≤ Block.maxSize) :
    frame.admits kind size = true := by
  have hlimit : frame.header.blockLimit = Block.maxSize := by
    rw [h.header]
    rfl
  have hone : max size 1 ≤ Block.maxSize := Nat.max_le.mpr ⟨hs, by decide⟩
  obtain ⟨buffers, hopening⟩ := h.streamed
  unfold OpenFrame.admits
  rw [hopening, hlimit]
  split <;> simp_all

end Plain

/-! ## 3. Blocks -/

theorem eq_replicate_of_filling? {content : Bytes} {b : UInt8} (h : filling? content = some b) :
    content = List.replicate content.length b := by
  match content with
  | [] => simp [filling?] at h
  | [_] => simp [filling?] at h
  | a :: c :: rest =>
    simp only [filling?, Option.ite_none_right_eq_some, Option.some.injEq] at h
    obtain ⟨hall, rfl⟩ := h
    refine List.eq_replicate_iff.mpr ⟨rfl, fun x hx => ?_⟩
    rcases List.mem_cons.mp hx with rfl | hx
    · rfl
    · exact eq_of_beq (List.all_eq_true.mp hall x hx)

/-- What the number in front of a block says. -/
theorem head_eq {kind : Nat} (last : Bool) (hkind : kind < 4) (size : Nat) :
    let head := last.toNat + 2 * kind + 8 * size
    head / 2 % 4 = kind ∧ head / 8 = size ∧ decide (head % 2 = 1) = last := by
  have hlast : last.toNat < 2 := last.toNat_lt
  refine ⟨by omega, by omega, ?_⟩
  cases last <;> simp only [Bool.toNat_false, Bool.toNat_true, decide_eq_false_iff_not,
    decide_eq_true_eq] <;> omega

/-- It is read back. -/
theorem splitNat?_blockHeader {kind size : Nat} (last : Bool) (hkind : kind < 4)
    (hsize : size ≤ Block.maxSize) (rest : Bytes) :
    Bytes.splitNat? 3 (blockHeader last kind size ++ rest)
      = some (last.toNat + 2 * kind + 8 * size, rest) := by
  have hlast : last.toNat < 2 := last.toNat_lt
  have hcap : Bytes.capacity 3 = 16777216 := by decide
  have hlt : last.toNat + 2 * kind + 8 * size < Bytes.capacity 3 := by
    rw [hcap]
    simp only [Block.maxSize] at hsize
    omega
  rw [Bytes.splitNat?, blockHeader, Bytes.split?_append rest (Bytes.length_ofNat 3 _)]
  simp only [Option.map_some, Bytes.toNat_ofNat, Nat.mod_eq_of_lt hlt]

/-- Where a frame stands behind a block. -/
def stageAfter (last : Bool) : OpenFrame → Stage := if last then .closing else .inside

variable {level : Level} {last : Bool} {content rest behind : Bytes} {frame frame' : OpenFrame}

/-- A block that is decoded at once is read back. -/
theorem readBlock_decoded {kind : Nat} {body : Bytes} (last : Bool) (hf : Plain frame)
    (hc : content.length ≤ Block.maxSize) (hkind : kind < 3)
    (hstored : ¬ (kind = 0 ∧ 0 < content.length))
    (hbody : Decoder.decodeBlock frame kind content.length body = .ok (frame.grow content, rest)) :
    Decoder.readBlock frame (blockHeader last kind content.length ++ body)
      = .ok ⟨3 + if kind = 1 then 1 else content.length, content, rest,
          stageAfter last (frame.grow content)⟩ := by
  obtain ⟨hkind', hsize, hlast⟩ := head_eq last (Nat.lt_succ_of_lt hkind) content.length
  refine Decoder.readBlock_eq_ok.mpr
    ⟨_, body, splitNat?_blockHeader last (Nat.lt_succ_of_lt hkind) hc body, ?_⟩
  rw [hkind', hsize, hlast, if_neg hstored]
  refine ⟨hkind, hf.admits hc, frame.grow content, rest, hbody, ?_⟩
  rw [Decoder.endBlock_eq_ok, OpenFrame.gained_grow]
  exact ⟨Or.inr (Or.inl (hf.grow content).sizeAgrees), (hf.grow content).fits, rfl⟩

/-- Of a block that is stored, the header is read first. -/
theorem readBlock_stored (last : Bool) (body : Bytes) (hf : Plain frame)
    (hc : content.length ≤ Block.maxSize) (hpos : 0 < content.length) :
    Decoder.readBlock frame (blockHeader last 0 content.length ++ body)
      = .ok ⟨3, [], body, .storing frame content.length last⟩ := by
  obtain ⟨hkind, hsize, hlast⟩ := head_eq last (Nat.zero_lt_succ 3) content.length
  refine Decoder.readBlock_eq_ok.mpr
    ⟨_, body, splitNat?_blockHeader last (Nat.zero_lt_succ 3) hc body, ?_⟩
  rw [hkind, hsize, hlast, if_pos ⟨rfl, hpos⟩]
  exact ⟨Nat.zero_lt_succ 2, hf.admits hc, rfl⟩

/-- A stored block is read as far as there is a chunk of input. -/
theorem readStored_front {atHand : Nat} (hf : Plain frame) (hpos : 0 < content.length)
    (hhand : 0 < atHand) (last : Bool) (rest : Bytes) : ∃ count, 0 < count ∧
      Decoder.readStored atHand frame content.length last (content ++ rest)
        = .ok ⟨count, content.take count, content.drop count ++ rest,
          if count < content.length then
            .storing (frame.grow (content.take count)) (content.drop count).length last
          else stageAfter last (frame.grow (content.take count))⟩ := by
  have hle : Decoder.storedCount atHand content.length (content ++ rest) ≤ content.length :=
    Nat.min_le_left _ _
  refine ⟨Decoder.storedCount atHand content.length (content ++ rest), ?_,
    Decoder.readStored_eq_ok.mpr ⟨?_, fun _ => ?_, ?_, ?_⟩⟩
  · simp only [Decoder.storedCount, List.length_append]
    omega
  · simp only [Decoder.storedCount, List.length_append]
    omega
  · exact Or.inr (hf.grow _).sizeAgrees
  · exact (hf.grow _).fits
  · simp only [OpenFrame.gained_grow, List.take_append_of_le_length hle,
      List.drop_append_of_le_length hle, List.length_drop, stageAfter]

/-- **A stored block yields what is stored**, in as many parts as there are chunks of input that it
goes through. -/
theorem blocks_stored (content : Bytes) :
    ∀ (frame : OpenFrame) (reader : Reader), Plain frame → 0 < content.length →
      (∀ reader, Decoder.Blocks ⟨rest, stageAfter last (frame.grow content), reader⟩ behind
        frame') →
      Decoder.Blocks ⟨content ++ rest, .storing frame content.length last, reader⟩
        (content ++ behind) frame' := by
  induction hn : content.length using Nat.strongRecOn generalizing content with
  | _ n ih =>
    subst hn
    intro frame reader hf hpos hrest
    have hhand : 0 < reader.atHand := Nat.sub_pos_of_lt (Nat.mod_lt _ (by decide))
    obtain ⟨count, hcount, hpart⟩ := readStored_front hf hpos hhand last rest
    rw [← Decoder.part_storing] at hpart
    have hsplit : content ++ behind = content.take count ++ (content.drop count ++ behind) := by
      rw [← List.append_assoc, List.take_append_drop]
    rw [hsplit]
    refine .of_part (Or.inr ⟨_, _, _, rfl⟩) hpart ?_
    by_cases hlt : count < content.length
    · rw [if_pos hlt]
      refine ih _ (by rw [List.length_drop]; omega) _ rfl _ _ (hf.grow _)
        (by rw [List.length_drop]; omega) ?_
      rw [OpenFrame.grow_grow, List.take_append_drop]
      exact hrest
    · have hall : content.take count = content := List.take_of_length_le (by omega)
      have hnone : content.drop count = [] := List.drop_of_length_le (by omega)
      rw [if_neg hlt, hall, hnone]
      exact hrest _

/-- **A block yields its content.**  The two kinds of block differ in the bytes behind their header
only. -/
theorem blocks_block (level : Level) (last : Bool) (hf : Plain frame)
    (hc : content.length ≤ Block.maxSize)
    (hrest : ∀ reader, Decoder.Blocks ⟨rest, stageAfter last (frame.grow content), reader⟩ behind
      frame') (reader : Reader) :
    Decoder.Blocks ⟨block level last content ++ rest, .inside frame, reader⟩ (content ++ behind)
      frame' := by
  have hin : ∀ input, Decoder.InBlocks ⟨input, .inside frame, reader⟩ :=
    fun _ => Or.inl ⟨frame, rfl⟩
  -- what is left to show once the block has been decoded
  have hdone : ∀ (kind : Nat) (body : Bytes), kind < 3 → ¬ (kind = 0 ∧ 0 < content.length) →
      Decoder.decodeBlock frame kind content.length (body ++ rest)
        = .ok (frame.grow content, rest) →
      Decoder.Blocks ⟨blockHeader last kind content.length ++ (body ++ rest), .inside frame, reader⟩
        (content ++ behind) frame' := by
    intro kind body hkind hstored hbody
    have hpart := readBlock_decoded last hf hc hkind hstored hbody
    rw [← Decoder.part_inside _ _ reader] at hpart
    exact .of_part (hin _) hpart (hrest _)
  unfold block
  split
  · rename_i b hb
    have hfill : content = List.replicate content.length b := by
      split at hb
      · exact absurd hb (by simp)
      · exact eq_replicate_of_filling? hb
    rw [List.append_assoc]
    refine hdone 1 [b] (by decide) (fun h => absurd h.1 (by decide)) ?_
    have hsplit : Bytes.split? 1 ([b] ++ rest) = some ([b], rest) := Bytes.split?_append rest rfl
    have hbody : [b].flatMap (List.replicate content.length) = content := by
      rw [List.flatMap_cons, List.flatMap_nil, List.append_nil, ← hfill]
    simp only [Decoder.decodeBlock, hsplit, Fallible.require, bind, Except.bind, hbody]
    rfl
  · rw [List.append_assoc]
    rcases Nat.eq_zero_or_pos content.length with hzero | hpos
    · obtain rfl := List.length_eq_zero_iff.mp hzero
      exact hdone 0 [] (by decide) (by simp) rfl
    · -- the header is a part of its own, which yields nothing
      have hpart := readBlock_stored last (content ++ rest) hf hc hpos
      rw [← Decoder.part_inside _ _ reader] at hpart
      exact .of_part (hin _) hpart (blocks_stored content frame _ hf hpos hrest)

/-! ## 4. Frames -/

/-- **The blocks that are written for a content yield the content.** -/
theorem blocks_blocks (level : Level) (content : Bytes) :
    ∀ (frame : OpenFrame) (reader : Reader), Plain frame →
      Decoder.Blocks ⟨blocks level content, .inside frame, reader⟩ content
        (frame.grow content) := by
  induction content using blocks.induct with
  | case1 content hlen =>
    intro frame reader hf
    have hblocks := blocks_block level true hf hlen
      (fun reader => .done (frame.grow content) reader) reader
    rw [List.append_nil, List.append_nil] at hblocks
    rwa [blocks, if_pos hlen]
  | case2 content hlen ih =>
    intro frame reader hf
    have hfront : (content.take Block.maxSize).length ≤ Block.maxSize := List.length_take_le _ _
    have hblocks := blocks_block level false hf hfront
      (fun reader => ih _ reader (hf.grow _)) reader
    rw [OpenFrame.grow_grow, List.take_append_drop] at hblocks
    rwa [blocks, if_neg hlen]

/-- What is written in front of the checksum. -/
theorem isFront_blocks (level : Level) (content : Bytes) :
    IsFront (header ++ blocks level content) content (Checksum.ofContent content) := by
  refine ⟨frameHeader, blocks level content, readStart_header _, Nat.le_of_ble_eq_true rfl, ?_⟩
  intro opening hallows reader
  cases opening with
  | whole room =>
    obtain ⟨size, hsize, -⟩ := hallows
    exact absurd hsize (by simp [frameHeader])
  | streamed buffers =>
    refine ⟨_, blocks_blocks level content _ reader ⟨rfl, buffers, rfl⟩, rfl, ?_⟩
    rw [OpenFrame.grow_toList]
    rfl

end Encoder

/-- **What is written for a content is a frame with this content.** -/
theorem isFrame_encode (level : Level) (content : Bytes) : IsFrame (encode level content) content :=
  ⟨_, _, rfl, Encoder.isFront_blocks level content⟩

/-- **Decoding undoes encoding.** -/
theorem decode_encode (level : Level) (content : Bytes) (limit : Nat) :
    decode limit (encode level content) = .ok content :=
  decode_of_isFrame (isFrame_encode level content) limit

end Zstd

/-! ## 5. Compressed byte strings -/

/-- **A stream that can be read** is accepted with the length of its content, and with no other. -/
theorem decompress_of_decode {bytes content : Bytes} {n : Nat}
    (h : Zstd.decode n bytes = .ok content) :
    decompress bytes n =
      if content.length = n then .ok content
      else .error (.recordLength n (min content.length (n + 1))) := by
  rw [decompress, Zstd.decodeUpTo, Zstd.Decoder.readUpTo_of_readAll _ h, Zstd.Decoder.left_start]
  by_cases hlen : content.length = n
  · have htake : content.take (n + 1) = content := List.take_of_length_le (by omega)
    simp only [htake, if_pos hlen]
  · have htake : (content.take (n + 1)).length = min content.length (n + 1) := by
      rw [List.length_take, Nat.min_comm]
    have hne : min content.length (n + 1) ≠ n := by omega
    simp only [htake, if_neg hlen, if_neg hne]

/-- **Decompressing with the true length gives the content back.** -/
theorem decompress_compress (level : Zstd.Level) (content : Bytes) :
    decompress (compress level content).bytes content.length = .ok content := by
  have hread := decompress_of_decode (Zstd.decode_encode level content content.length)
  rwa [if_pos rfl] at hread

/-- A compressed byte string is never empty. -/
theorem size_compress_pos (level : Zstd.Level) (content : Bytes) :
    0 < (compress level content).bytes.length := by
  simp [compress, Zstd.encode, Zstd.Encoder.header]

end ConstStore
