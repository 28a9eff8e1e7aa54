/-
# The parts of a stream

A decoder takes a stream apart: frame headers, blocks, checksums.  This module says what a step does
to the reader, and what it does with more input and with less.

There is one part that is read although it is not all there: inside a stored block, what is read is
what the input has of it (`Decoder.CutShort`).

* `Reader.done_after`, `Reader.limit_after`: a reader keeps count of the content.
* `Decoder.left_of_step`: what a step yields is less to take.
* `Decoder.stream_induction`: what holds at the end, at a fault and before a part, holds everywhere.
* `Decoder.step_feed`, `Decoder.step_cut`: a step with more input, and with less.
-/
import ConstStore.Proofs.Zstd.Fronts

namespace ConstStore
namespace Zstd

/-! ## 1. Readers -/

namespace Pieces

@[simp] theorem next_limit (pieces : Pieces) : pieces.next.limit = pieces.limit := rfl

@[simp] theorem next_done (pieces : Pieces) : pieces.next.done = pieces.done := rfl

@[simp] theorem finish_limit (pieces : Pieces) : pieces.finish.limit = pieces.limit := by
  unfold finish
  split <;> rfl

@[simp] theorem finish_done (pieces : Pieces) : pieces.finish.done = pieces.done := by
  unfold finish
  split <;> rfl

@[simp] theorem drain_limit (count : Nat) (pieces : Pieces) :
    (drain count pieces).limit = pieces.limit := by
  fun_induction drain with
  | case1 pieces => rfl
  | case2 count pieces => rfl
  | case3 count pieces _ _ _ ih => exact ih

@[simp] theorem drain_done (count : Nat) (pieces : Pieces) :
    (drain count pieces).done = pieces.done + count := by
  fun_induction drain with
  | case1 pieces => rfl
  | case2 count pieces => rfl
  | case3 count pieces _ given _ ih =>
    rw [ih]
    simp only [next_done]
    omega

@[simp] theorem give_limit (count : Nat) (pieces : Pieces) :
    (pieces.give count).limit = pieces.limit := by
  simp only [give]
  split
  · rfl
  · rw [drain_limit]

@[simp] theorem give_done (count : Nat) (pieces : Pieces) :
    (pieces.give count).done = pieces.done + count := by
  simp only [give]
  split
  · rename_i hall
    rw [hall]
  · rw [drain_done]
    simp only
    omega

end Pieces

namespace Reader

variable {reader : Reader} {part : Part}

@[simp] theorem skip_limit (reader : Reader) (taken : Nat) :
    (reader.skip taken).pieces.limit = reader.pieces.limit := by
  simp only [skip]
  split <;> simp

@[simp] theorem skip_done (reader : Reader) (taken : Nat) :
    (reader.skip taken).pieces.done = reader.pieces.done := by
  simp only [skip]
  split <;> simp

/-- What is asked for in all does not change. -/
@[simp] theorem limit_after (reader : Reader) (part : Part) :
    (reader.after part).pieces.limit = reader.pieces.limit := by
  have htake : (reader.take part.taken part.content.length).pieces.limit = reader.pieces.limit := by
    simp only [take]
    split <;> simp
  simp only [after]
  split <;> simp [htake]

/-- **A reader keeps count of the content**, which no part yields that takes nothing. -/
theorem done_after (h : part.taken = 0 → part.content = []) :
    (reader.after part).pieces.done = reader.pieces.done + part.content.length := by
  have htake : (reader.take part.taken part.content.length).pieces.done
      = reader.pieces.done + part.content.length := by
    simp only [take]
    split
    · rename_i hzero
      simp [h hzero]
    · simp
  simp only [after]
  split <;> simp [htake]

/-- It keeps count of the input, too. -/
theorem position_after (reader : Reader) (part : Part) :
    (reader.after part).position = reader.position + part.taken := by
  simp only [after, take]
  split
  · rename_i hzero
    simp [hzero]
  · simp only [skip]
    omega

end Reader

/-! ## 2. Frames that grow -/

namespace OpenFrame

variable {frame : OpenFrame} {content : Bytes}

@[simp] theorem grow_header (frame : OpenFrame) (content : Bytes) :
    (frame.grow content).header = frame.header := rfl

@[simp] theorem grow_opening (frame : OpenFrame) (content : Bytes) :
    (frame.grow content).opening = frame.opening := rfl

@[simp] theorem grow_toList (frame : OpenFrame) (content : Bytes) :
    (frame.grow content).content.toList = frame.content.toList ++ content := by
  simp [grow]

@[simp] theorem size_grow (frame : OpenFrame) (content : Bytes) :
    (frame.grow content).content.size = frame.content.size + content.length := by
  rw [← Array.length_toList, grow_toList, List.length_append, Array.length_toList]

theorem grow_grow (frame : OpenFrame) (front back : Bytes) :
    (frame.grow front).grow back = frame.grow (front ++ back) := by
  simp only [grow, OpenFrame.mk.injEq, true_and]
  exact Array.ext' (by simp)

/-- **What a frame has gained by growing.** -/
@[simp] theorem gained_grow (frame : OpenFrame) (content : Bytes) :
    frame.gained (frame.grow content) = content := by
  rw [gained, size_grow, Array.toList_extract, grow_toList]
  simp

/-- There is room for less where there is room for more. -/
theorem fits_of_grow {more : Bytes} (h : (frame.grow (content ++ more)).fits = true) :
    (frame.grow content).fits = true := by
  rw [← grow_grow] at h
  simp only [fits, room?, grow_opening, grow_header, size_grow, Option.all_eq_true,
    decide_eq_true_eq] at h ⊢
  exact fun room hroom => Nat.le_trans (Nat.le_add_right _ _) (h room hroom)

end OpenFrame

namespace Decoder

variable {decoder middle next : Decoder} {reader : Reader} {input content : Bytes} {part : Part}
  {fault : Fault}

/-! ## 3. Parts -/

@[simp] theorem part_inside (input : Bytes) (frame : OpenFrame) (reader : Reader) :
    Decoder.part ⟨input, .inside frame, reader⟩ = readBlock frame input := by
  cases input <;> rfl

@[simp] theorem part_storing (input : Bytes) (frame : OpenFrame) (left : Nat) (last : Bool)
    (reader : Reader) : Decoder.part ⟨input, .storing frame left last, reader⟩
      = readStored reader.atHand frame left last input := by
  cases input <;> rfl

@[simp] theorem part_closing (input : Bytes) (frame : OpenFrame) (reader : Reader) :
    Decoder.part ⟨input, .closing frame, reader⟩ = closeFrame frame input := by
  cases input <;> rfl

/-- Between two frames that have input left, the next part starts a frame or skips one. -/
theorem part_between {started : Bool} (h : input ≠ []) :
    Decoder.part ⟨input, .between started, reader⟩ = openFrame reader input := by
  cases input with
  | nil => exact absurd rfl h
  | cons b input => rfl

/-- There is nothing to start a frame with. -/
theorem openFrame_nil (reader : Reader) : openFrame reader [] = .error .truncated := rfl

theorem ne_nil_of_part {started : Bool}
    (h : Decoder.part ⟨input, .between started, reader⟩ = .ok part) : input ≠ [] := by
  rintro rfl
  cases started <;> exact absurd h (by simp [Decoder.part, openFrame_nil])

/-! ## 4. Steps -/

theorem step_eq_ok : decoder.step = .ok (content, next) ↔
    ∃ part, decoder.part = .ok part ∧ part.content = content ∧ decoder.behind part = next := by
  rw [step, Fallible.map_eq_ok]
  simp only [Prod.mk.injEq]

theorem step_eq_error : decoder.step = .error fault ↔ decoder.part = .error fault :=
  Fallible.map_eq_error

theorem finished_iff :
    decoder.finished = true ↔ decoder.input = [] ∧ decoder.stage = .between true := by
  obtain ⟨input, stage, reader⟩ := decoder
  cases input with
  | cons b input => simp [finished]
  | nil =>
    cases stage with
    | between started => cases started <;> simp [finished]
    | inside frame | storing frame left last | closing frame => simp [finished]

/-- A decoder inside a frame has not come to the end. -/
theorem finished_of_frame {frame : OpenFrame} (h : decoder.stage.frame? = some frame) :
    decoder.finished = false := by
  rw [Bool.eq_false_iff]
  intro hf
  rw [(finished_iff.mp hf).2] at h
  exact absurd h (by simp [Stage.frame?])

/-- A decoder that takes a step has not come to the end. -/
theorem finished_of_step (h : decoder.step = .ok (content, next)) : decoder.finished = false := by
  rw [Bool.eq_false_iff]
  intro hf
  obtain ⟨input, stage, reader⟩ := decoder
  obtain ⟨rfl, rfl⟩ := finished_iff.mp hf
  exact absurd h (by simp [step, Decoder.part, openFrame_nil, Except.map])

/-- No content without input. -/
theorem content_of_taken (h : decoder.part = .ok part) (hzero : part.taken = 0) :
    part.content = [] := by
  obtain ⟨input, started | frame | ⟨frame, left, last⟩ | frame, reader⟩ := decoder
  · rw [part_between (ne_nil_of_part h)] at h
    obtain ⟨header?, rest, -, h⟩ := openFrame_eq_ok.mp h
    cases header? with
    | none => rw [h]
    | some header => rw [h.2]
  · rw [part_inside] at h
    obtain ⟨head, rest, -, -, -, h⟩ := readBlock_eq_ok.mp h
    split at h
    · rw [h]
    · obtain ⟨next, rest', -, h⟩ := h
      rw [(endBlock_eq_ok.mp h).2.2] at hzero
      simp only at hzero
      omega
  · rw [part_storing] at h
    obtain ⟨hpos, -, -, rfl⟩ := readStored_eq_ok.mp h
    exact absurd hzero (Nat.ne_of_gt hpos)
  · rw [part_closing] at h
    have hpart := closeFrame_eq_ok.mp h
    split at hpart
    · obtain ⟨rest, -, rfl⟩ := hpart
      rfl
    · rw [hpart]

theorem done_of_step (h : decoder.step = .ok (content, next)) :
    next.reader.pieces.done = decoder.reader.pieces.done + content.length := by
  obtain ⟨part, hpart, rfl, rfl⟩ := step_eq_ok.mp h
  exact Reader.done_after (content_of_taken hpart)

theorem limit_of_step (h : decoder.step = .ok (content, next)) :
    next.reader.pieces.limit = decoder.reader.pieces.limit := by
  obtain ⟨part, -, rfl, rfl⟩ := step_eq_ok.mp h
  exact Reader.limit_after _ _

/-- **What is taken is less to take.** -/
theorem left_of_step (h : decoder.step = .ok (content, next)) :
    next.left = decoder.left - content.length := by
  rw [left, left, done_of_step h, limit_of_step h]
  omega

/-- **Induction along a stream**: a decoder is at the end, at a fault, or before a part. -/
@[elab_as_elim]
theorem stream_induction {motive : Decoder → Prop} (decoder : Decoder)
    (finished : ∀ decoder : Decoder, decoder.finished = true → motive decoder)
    (fault : ∀ (decoder : Decoder) (fault : Fault), decoder.finished = false →
      decoder.step = .error fault → motive decoder)
    (part : ∀ (decoder : Decoder) (content : Bytes) (next : Decoder),
      decoder.step = .ok (content, next) → motive next → motive decoder) : motive decoder := by
  induction hm : decoder.measure using Nat.strongRecOn generalizing decoder with
  | _ m ih =>
    cases hf : decoder.finished with
    | true => exact finished decoder hf
    | false =>
      cases hs : decoder.step with
      | error e => exact fault decoder e hf hs
      | ok read =>
        exact part decoder read.1 read.2 hs (ih _ (hm ▸ measure_step hs) read.2 rfl)

/-! ## 5. More input, and less -/

/-- The decoder with more input behind the one that it has. -/
def feed (decoder : Decoder) (more : Bytes) : Decoder :=
  { decoder with input := decoder.input ++ more }

/-- A frame has been opened. -/
def InFrame (decoder : Decoder) : Prop := decoder.stage.frame?.isSome

/-- The input ends in what is read next of a stored block. -/
def CutShort (decoder : Decoder) : Prop :=
  ∃ frame left last, decoder.stage = .storing frame left last ∧
    decoder.input.length < min left decoder.reader.atHand

theorem InFrame.finished (h : decoder.InFrame) : decoder.finished = false := by
  obtain ⟨frame, hframe⟩ := Option.isSome_iff_exists.mp h
  exact finished_of_frame hframe

theorem inFrame_of_storing {frame : OpenFrame} {left : Nat} {last : Bool}
    (h : decoder.stage = .storing frame left last) : decoder.InFrame := by
  rw [InFrame, h]
  rfl

theorem readStored_eq_error {atHand left : Nat} {frame : OpenFrame} {last : Bool}
    (h : storedCount atHand left input = 0) :
    readStored atHand frame left last input = .error .truncated := by
  simp only [readStored, h]
  rfl

/-- Of a stored block that can be read, every part can be read that is not empty. -/
theorem readStored_of_feed {atHand left : Nat} {frame : OpenFrame} {last : Bool} {more : Bytes}
    (h : readStored atHand frame left last (input ++ more) = .ok part)
    (hpos : 0 < storedCount atHand left input) :
    ∃ part, readStored atHand frame left last input = .ok part := by
  obtain ⟨-, hsize, hfits, -⟩ := readStored_eq_ok.mp h
  have hle : storedCount atHand left input ≤ input.length := by
    simp only [storedCount]
    omega
  obtain ⟨extra, hextra⟩ : ∃ extra,
      storedCount atHand left (input ++ more) = storedCount atHand left input + extra := by
    refine Nat.exists_eq_add_of_le ?_
    simp only [storedCount, List.length_append]
    omega
  refine ⟨_, readStored_eq_ok.mpr ⟨hpos, fun hall => ?_, ?_, rfl⟩⟩
  · have hsame : storedCount atHand left (input ++ more) = storedCount atHand left input := by
      simp only [storedCount, List.length_append] at hall ⊢
      omega
    rw [hsame, List.take_append_of_le_length hle] at hsize
    exact hsize hall
  · rw [hextra, List.take_add, List.take_append_of_le_length hle] at hfits
    exact OpenFrame.fits_of_grow hfits

/-- **What follows a part has no influence on it**, once its frame has been opened. -/
theorem part_feed (h : decoder.part = .ok part) (hframe : decoder.InFrame)
    (hc : ¬ decoder.CutShort) (more : Bytes) :
    (decoder.feed more).part = .ok (part.feed more) := by
  obtain ⟨input, started | frame | ⟨frame, left, last⟩ | frame, reader⟩ := decoder
  · exact absurd hframe (by simp [InFrame, Stage.frame?])
  · rw [part_inside] at h
    rw [feed, part_inside]
    exact (fromFront_readBlock frame).ofFeed h more
  · have hlen : min left reader.atHand ≤ input.length :=
      Nat.le_of_not_lt fun hlt => hc ⟨frame, left, last, rfl, hlt⟩
    have hsame : storedCount reader.atHand left (input ++ more)
        = storedCount reader.atHand left input := by
      simp only [storedCount, List.length_append]
      omega
    have hle : storedCount reader.atHand left input ≤ input.length := by
      simp only [storedCount]
      omega
    rw [part_storing] at h
    rw [feed, part_storing]
    have hpart := readStored_eq_ok.mp h
    simp only at hpart
    rw [readStored_eq_ok]
    simp only [hsame, List.take_append_of_le_length hle, List.drop_append_of_le_length hle]
    refine ⟨hpart.1, hpart.2.1, hpart.2.2.1, ?_⟩
    rw [hpart.2.2.2]
    rfl
  · rw [part_closing] at h
    rw [feed, part_closing]
    exact (fromFront_closeFrame frame).ofFeed h more

theorem step_feed (hs : decoder.step = .ok (content, next)) (hframe : decoder.InFrame)
    (hc : ¬ decoder.CutShort) (more : Bytes) :
    (decoder.feed more).step = .ok (content, next.feed more) := by
  obtain ⟨part, hpart, rfl, rfl⟩ := step_eq_ok.mp hs
  exact step_eq_ok.mpr ⟨part.feed more, part_feed hpart hframe hc more, rfl, rfl⟩

/-- **A step that fails on the front of what it can read** finds the front truncated. -/
theorem step_cut {more : Bytes} (hlong : (decoder.feed more).step = .ok (content, next))
    (hframe : decoder.InFrame) (h : decoder.step = .error fault) : fault = .truncated := by
  obtain ⟨part, hlong, -, -⟩ := step_eq_ok.mp hlong
  have h := step_eq_error.mp h
  obtain ⟨input, started | frame | ⟨frame, left, last⟩ | frame, reader⟩ := decoder
  · exact absurd hframe (by simp [InFrame, Stage.frame?])
  · rw [part_inside] at h
    rw [feed, part_inside] at hlong
    exact (fromFront_readBlock frame).ofCut hlong h
  · rw [part_storing] at h
    rw [feed, part_storing] at hlong
    rcases Nat.eq_zero_or_pos (storedCount reader.atHand left input) with hzero | hpos
    · rw [readStored_eq_error hzero] at h
      exact (Except.error.inj h).symm
    · obtain ⟨part', hpart'⟩ := readStored_of_feed hlong hpos
      exact absurd (h.symm.trans hpart') (by simp)
  · rw [part_closing] at h
    rw [feed, part_closing] at hlong
    exact (fromFront_closeFrame frame).ofCut hlong h

/-- **Behind a stored block that the input ends in** there is nothing to read on. -/
theorem step_of_cutShort (hs : decoder.step = .ok (content, next)) (hc : decoder.CutShort) :
    content = decoder.input ∧ content ≠ [] ∧
      (∃ frame left last, next.stage = .storing frame left last) ∧
      next.step = .error .truncated := by
  obtain ⟨part, hpart, rfl, rfl⟩ := step_eq_ok.mp hs
  obtain ⟨input, stage, reader⟩ := decoder
  obtain ⟨frame, left, last, rfl, hlen⟩ := hc
  have hcount : storedCount reader.atHand left input = input.length := by
    simp only [storedCount] at hlen ⊢
    omega
  rw [part_storing, readStored_eq_ok] at hpart
  simp only [hcount, List.take_length, List.drop_length, OpenFrame.gained_grow] at hpart hlen
  obtain ⟨hpos, -, -, rfl⟩ := hpart
  rw [if_pos (by omega)]
  refine ⟨rfl, List.length_pos_iff.mp hpos, ⟨_, _, _, rfl⟩, ?_⟩
  rw [step_eq_error, behind, part_storing, readStored_eq_error]
  simp [storedCount]

end Decoder
end Zstd
end ConstStore
