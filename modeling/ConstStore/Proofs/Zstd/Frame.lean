/-
# Frames

A frame has a header, blocks and perhaps a checksum.  How it is opened depends on the reader, and so
does what may be wrong with its blocks; a frame here is one whose blocks can be read in every way in
which its header allows it to be opened.

A frame that ends in a checksum cannot be cut without the decoder noticing.  A cut inside a field
leaves too little for the field; a cut inside a stored block leaves the front of the block, which is
handed out, and then nothing to read on; and a cut between two parts leaves nothing for the next
one.  So although all of the content may have been handed out before the cut is noticed, reading
fails in the end, as long as the reader does not stop at the length that it was asked for.

* `Decoder.Blocks`: the blocks of a frame, up to the last one.
* `IsFrame`: one frame with this content that ends in its checksum.
* `decode_of_isFrame`: it is read whole.
* `decodeUpTo_of_cut`, `decodeUpTo_of_otherChecksum`: what is read of a frame that is cut, and of
  one with another checksum.
-/
import ConstStore.Proofs.Zstd.Reading

namespace ConstStore
namespace Zstd
namespace Decoder

variable {decoder next next' : Decoder} {content content' more : Bytes} {last : OpenFrame}
  {limit : Nat}

/-! ## 1. The blocks of a frame -/

/-- In front of a block or inside a stored one. -/
def InBlocks (decoder : Decoder) : Prop :=
  (∃ frame, decoder.stage = .inside frame) ∨
    ∃ frame left last, decoder.stage = .storing frame left last

theorem InBlocks.inFrame (h : decoder.InBlocks) : decoder.InFrame := by
  rcases h with ⟨frame, h⟩ | ⟨frame, left, last, h⟩ <;> rw [InFrame, h] <;> rfl

/-- The decoder stands before blocks that are all there is, and they yield this content and leave
this frame. -/
inductive Blocks : Decoder → Bytes → OpenFrame → Prop
  | done (frame : OpenFrame) (reader : Reader) : Blocks ⟨[], .closing frame, reader⟩ [] frame
  | part {decoder next : Decoder} {content rest : Bytes} {last : OpenFrame} :
      decoder.InBlocks → decoder.step = .ok (content, next) → Blocks next rest last →
      Blocks decoder (content ++ rest) last

theorem Blocks.of_part {part : Part} {rest : Bytes} (hin : decoder.InBlocks)
    (hpart : decoder.part = .ok part) (h : Blocks (decoder.behind part) rest last) :
    Blocks decoder (part.content ++ rest) last :=
  .part hin (step_eq_ok.mpr ⟨part, hpart, rfl, rfl⟩) h

/-- The input does not end inside a block behind which there are blocks that can be read. -/
theorem Blocks.not_cutShort (h : Blocks next content' last)
    (hs : decoder.step = .ok (content, next)) : ¬ decoder.CutShort := by
  intro hc
  obtain ⟨-, -, ⟨frame, left, last, hstage⟩, herror⟩ := step_of_cutShort hs hc
  cases h with
  | done frame reader => exact absurd hstage (by simp)
  | part _ hs' _ => exact absurd (herror.symm.trans hs') (by simp)

/-- **What follows the blocks of a frame has no influence on them.** -/
theorem Blocks.passes (h : Blocks decoder content last) (more : Bytes) :
    ∃ reader, Passes (decoder.feed more) content ⟨more, .closing last, reader⟩ := by
  induction h with
  | done frame reader => exact ⟨reader, .refl _⟩
  | part hin hs hrest ih =>
    obtain ⟨reader, hpasses⟩ := ih
    exact ⟨reader, .step (step_feed hs hin.inFrame (hrest.not_cutShort hs) more) hpasses⟩

/-- A stored block that the input ends in yields no more than with more input. -/
theorem length_le_of_cutShort (hc : decoder.CutShort) (h : decoder.step = .ok (content, next))
    (h' : (decoder.feed more).step = .ok (content', next')) : content.length ≤ content'.length := by
  obtain ⟨part, hpart, rfl, -⟩ := step_eq_ok.mp h
  obtain ⟨part', hpart', rfl, -⟩ := step_eq_ok.mp h'
  obtain ⟨input, stage, reader⟩ := decoder
  obtain ⟨frame, left, last, rfl, -⟩ := hc
  rw [part_storing, readStored_eq_ok] at hpart
  rw [feed, part_storing, readStored_eq_ok] at hpart'
  simp only [OpenFrame.gained_grow] at hpart hpart'
  rw [hpart.2.2.2, hpart'.2.2.2]
  simp only [List.length_take, List.length_append, storedCount]
  omega

/-- **Blocks that are cut anywhere are found truncated**, by a reader that would take all of their
content. -/
theorem Blocks.readUpTo_cut (h : Blocks (decoder.feed more) content last) (hmore : more ≠ [])
    (hlt : content.length < decoder.left) : decoder.readUpTo = .error .truncated := by
  generalize hfed : decoder.feed more = fed at h
  induction h generalizing decoder with
  | done frame reader =>
    exact absurd (List.append_eq_nil_iff.mp (congrArg Decoder.input hfed)).2 hmore
  | @part fed next head rest last hin hs hrest ih =>
    subst hfed
    have hframe : decoder.InFrame := hin.inFrame
    rw [List.length_append] at hlt
    cases hfront : decoder.step with
    | error fault =>
      obtain rfl := step_cut hs hframe hfront
      exact readUpTo_of_error hframe.finished hfront
    | ok read =>
      obtain ⟨head', next'⟩ := read
      by_cases hc : decoder.CutShort
      · -- the front of the block is handed out, and that is all
        have hlen := length_le_of_cutShort hc hfront hs
        obtain ⟨-, -, ⟨frame, left, last, hstage⟩, herror⟩ := step_of_cutShort hfront hc
        exact readUpTo_of_fault (.of_step hfront) (by omega) (inFrame_of_storing hstage).finished
          herror
      · -- the cut is behind this part
        obtain ⟨rfl, rfl⟩ := Prod.mk.inj (Except.ok.inj
          (hs.symm.trans (step_feed hfront hframe hc more)))
        rw [readUpTo_of_step hfront (by omega), ih (by rw [left_of_step hfront]; omega) rfl]
        rfl

end Decoder

/-! ## 2. Openings -/

/-- The ways in which a frame with this header may be opened: it is decoded in one go only where
there is room for the content size that it gives. -/
def FrameHeader.Allows (header : FrameHeader) : Opening → Prop
  | .whole room => ∃ size ∈ header.contentSize, size ≤ room
  | .streamed _ => True

/-- **A reader opens a frame in a way that its header allows.** -/
theorem Reader.allows_opening (reader : Reader) (header : FrameHeader) (size : Nat) (rest : Bytes) :
    header.Allows (reader.opening header size rest) := by
  unfold opening
  split
  · trivial
  · rename_i length hlength
    split
    · rename_i hroom
      exact ⟨length, hlength, hroom.1⟩
    · trivial

/-- A frame whose window is not too large is opened in one way or another. -/
theorem Decoder.step_start {front rest : Bytes} {header : FrameHeader} (limit : Nat)
    (h : readStart front = .ok (some header, rest)) (hwindow : header.window ≤ maxWindow) :
    ∃ opening reader, header.Allows opening ∧ (start limit front).step
      = .ok ([], ⟨rest, .inside (.start header opening), reader⟩) := by
  have hne : front ≠ [] := by
    rintro rfl
    exact absurd (length_of_readStart h) (Nat.not_lt_zero _)
  have hpart : (start limit front).part = .ok ⟨front.length - rest.length, [], rest, .inside (.start
      header ((Reader.start limit).opening header (front.length - rest.length) rest))⟩ := by
    rw [start, part_between hne, openFrame_eq_ok]
    exact ⟨some header, rest, h, Or.inr hwindow, rfl⟩
  exact ⟨_, _, Reader.allows_opening _ header _ rest, step_eq_ok.mpr ⟨_, hpart, rfl, rfl⟩⟩

/-! ## 3. Frames -/

/-- What stands in front of the checksum of a frame: its header, and blocks with this content and
this checksum, which can be read however the frame is opened. -/
def IsFront (front content sum : Bytes) : Prop :=
  ∃ (header : FrameHeader) (rest : Bytes),
    Decoder.readStart front = .ok (some header, rest) ∧ header.window ≤ maxWindow ∧
    ∀ opening, header.Allows opening → ∀ reader, ∃ last,
      Decoder.Blocks ⟨rest, .inside (.start header opening), reader⟩ content last ∧
        last.header.checksum = true ∧ Checksum.ofContent last.content.toList = sum

/-- One frame with this content, which ends in the checksum of the content. -/
def IsFrame (bytes content : Bytes) : Prop :=
  ∃ front sum, bytes = front ++ sum ∧ IsFront front content sum

variable {bytes front content sum other tail : Bytes} {fault : Fault} {limit : Nat}

namespace IsFront

theorem ne_nil (h : IsFront front content sum) : front ≠ [] := by
  obtain ⟨header, rest, hstart, -⟩ := h
  rintro rfl
  exact absurd (Decoder.length_of_readStart hstart) (Nat.not_lt_zero _)

theorem length_sum (h : IsFront front content sum) : sum.length = 4 := by
  obtain ⟨header, rest, -, -, hblocks⟩ := h
  obtain ⟨last, -, -, rfl⟩ := hblocks (.streamed .none) trivial (.start 0)
  exact Checksum.length_ofContent _

/-- **Whatever stands in the place of the checksum**, a frame is read up to there. -/
theorem passes (h : IsFront front content sum) (limit : Nat) (tail : Bytes) : ∃ last reader,
    Decoder.Passes (.start limit (front ++ tail)) content ⟨tail, .closing last, reader⟩ ∧
      last.header.checksum = true ∧ Checksum.ofContent last.content.toList = sum := by
  obtain ⟨header, rest, hstart, hwindow, hblocks⟩ := h
  obtain ⟨opening, reader, hallows, hs⟩ := Decoder.step_start limit
    (Decoder.fromFront_readStart.ofFeed hstart tail) hwindow
  obtain ⟨last, hlast, hclose⟩ := hblocks opening hallows reader
  obtain ⟨reader', hpasses⟩ := hlast.passes tail
  exact ⟨last, reader', .step hs hpasses, hclose⟩

/-- **What does not close the frame is reported**, although all of the content has been read. -/
theorem decodeUpTo_of_tail (h : IsFront front content sum) (hle : content.length ≤ limit)
    (htail : ∀ last : OpenFrame, last.header.checksum = true →
      Checksum.ofContent last.content.toList = sum →
      Decoder.closeFrame last tail = .error fault) :
    decodeUpTo limit (front ++ tail) = .error fault := by
  obtain ⟨last, reader, hpasses, hchecksum, hsum⟩ := h.passes limit tail
  refine Decoder.readUpTo_of_fault hpasses ?_ (Decoder.finished_of_frame rfl) ?_
  · exact Nat.lt_succ_of_le hle
  · rw [Decoder.step_eq_error, Decoder.part_closing, htail last hchecksum hsum]

/-- **A cut in the checksum** or just in front of it. -/
theorem decodeUpTo_cutSum (h : IsFront front content sum) (hle : content.length ≤ limit)
    (hlen : tail.length < 4) : decodeUpTo limit (front ++ tail) = .error .truncated := by
  refine h.decodeUpTo_of_tail hle fun last hchecksum _ => ?_
  rw [Decoder.closeFrame, if_pos hchecksum, Bytes.split?_eq_none_iff.mpr hlen]
  rfl

/-- **A cut in front of the checksum.** -/
theorem decodeUpTo_cut {more : Bytes} (h : IsFront (front ++ more) content sum) (hmore : more ≠ [])
    (hle : content.length ≤ limit) :
    decodeUpTo limit front = .error (if front = [] then .noFrame else .truncated) := by
  obtain ⟨header, rest, hstart, hwindow, hblocks⟩ := h
  by_cases hempty : front = []
  · subst hempty
    exact Decoder.readUpTo_of_error rfl rfl
  rw [if_neg hempty]
  cases hfront : Decoder.readStart front with
  | error fault =>
    obtain rfl := Decoder.fromFront_readStart.ofCut hstart hfront
    refine Decoder.readUpTo_of_error ?_ ?_
    · rw [Bool.eq_false_iff]
      exact fun hf => hempty (Decoder.finished_iff.mp hf).1
    · rw [Decoder.step_eq_error, Decoder.start, Decoder.part_between hempty, Decoder.openFrame,
        hfront]
      rfl
  | ok read =>
    obtain ⟨header?, rest'⟩ := read
    obtain ⟨rfl, rfl⟩ := Prod.mk.inj (Except.ok.inj
      (hstart.symm.trans (Decoder.fromFront_readStart.ofFeed hfront more)))
    obtain ⟨opening, reader, hallows, hs⟩ := Decoder.step_start limit hfront hwindow
    obtain ⟨last, hlast, -⟩ := hblocks opening hallows reader
    have hcut : Decoder.readUpTo ⟨rest', .inside (.start header opening), reader⟩
        = .error .truncated := by
      refine Decoder.Blocks.readUpTo_cut hlast hmore ?_
      rw [Decoder.left_of_step hs]
      exact Nat.lt_succ_of_le hle
    rw [decodeUpTo, Decoder.readUpTo_of_step hs (Nat.succ_pos limit), hcut]
    rfl

end IsFront

/-- **A frame is read whole.** -/
theorem decode_of_isFrame (h : IsFrame bytes content) (limit : Nat) :
    decode limit bytes = .ok content := by
  obtain ⟨front, sum, rfl, hfront⟩ := h
  obtain ⟨last, reader, hpasses, hchecksum, hsum⟩ := hfront.passes limit sum
  have hclose : Decoder.part ⟨sum, .closing last, reader⟩ = .ok ⟨4, [], [], .between true⟩ := by
    rw [Decoder.part_closing, Decoder.closeFrame_eq_ok, if_pos hchecksum, hsum]
    exact ⟨[], (List.append_nil sum).symm, rfl⟩
  have hread := Decoder.readAll_of_passes
    (hpasses.trans (.of_step (Decoder.step_eq_ok.mpr ⟨_, hclose, rfl, rfl⟩)))
  rw [decode, hread, Decoder.readAll_of_finished rfl]
  simp only [Except.map, List.append_nil]

/-! ## 4. Damaged frames -/

/-- **A frame that is cut is found truncated**, by a reader that would take all of its content;
where nothing is left of it there is no frame. -/
theorem decodeUpTo_of_cut (h : IsFrame bytes content) (hle : content.length ≤ limit)
    (hother : other <+: bytes) (hne : other ≠ bytes) :
    decodeUpTo limit other = .error (if other = [] then .noFrame else .truncated) := by
  obtain ⟨front, sum, rfl, hfront⟩ := h
  obtain ⟨more, hmore⟩ := hother
  have hsum : ∀ tail : Bytes, tail.length < 4 → decodeUpTo limit (front ++ tail)
      = .error (if front ++ tail = [] then .noFrame else .truncated) := by
    intro tail htail
    rw [if_neg (List.append_ne_nil_of_left_ne_nil hfront.ne_nil _)]
    exact hfront.decodeUpTo_cutSum hle htail
  rcases List.append_eq_append_iff.mp hmore with ⟨middle, rfl, -⟩ | ⟨tail, rfl, htail⟩
  · by_cases hmiddle : middle = []
    · subst hmiddle
      simpa only [List.append_nil] using hsum [] (Nat.zero_lt_succ 3)
    · exact hfront.decodeUpTo_cut hmiddle hle
  · have hmore : more ≠ [] := by
      rintro rfl
      exact hne (by rw [htail, List.append_nil])
    have hlen := hfront.length_sum
    rw [htail, List.length_append] at hlen
    have hpos := List.length_pos_iff.mpr hmore
    exact hsum tail (by omega)

/-- **Another checksum is refused.** -/
theorem decodeUpTo_of_otherChecksum (h : IsFrame bytes content) (hle : content.length ≤ limit)
    (hlen : other.length = bytes.length)
    (hother : other.take (bytes.length - 4) = bytes.take (bytes.length - 4))
    (hne : other ≠ bytes) : decodeUpTo limit other = .error .checksum := by
  obtain ⟨front, sum, rfl, hfront⟩ := h
  have hfour := hfront.length_sum
  have hcut : (front ++ sum).length - 4 = front.length := by
    rw [List.length_append, hfour, Nat.add_sub_cancel]
  rw [hcut, List.take_left' rfl] at hother
  obtain ⟨tail, rfl⟩ := List.prefix_iff_eq_take.mpr hother.symm
  have htail : tail.length = 4 := by simpa [hfour] using hlen
  refine hfront.decodeUpTo_of_tail hle fun last hchecksum hsum => ?_
  have hsplit := Bytes.split?_append [] htail
  rw [List.append_nil] at hsplit
  have hwrong : ¬ tail = sum := fun heq => hne (heq ▸ rfl)
  simp only [Decoder.closeFrame, if_pos hchecksum, hsplit, hsum, Fallible.require, Fallible.guard,
    bind, Except.bind, if_neg hwrong]

end Zstd
end ConstStore
