/-
# Damaged records

A record is compressed to a frame that ends in a checksum, so that damage is noticed.  What becomes
of a damaged frame is said of frames in general; this module says what `decompress` answers then.

* `NoticesDamage`: a reader that finds every cut, and refuses every other checksum.
* `damage_is_noticed`: `decompress` is one, as long as no less than the content is asked for.
-/
import ConstStore.Proofs.Zstd.Bounded

namespace ConstStore

/-- **A reader that lets no damage to these bytes pass.**  Their front it finds truncated, wherever
they are cut, and it refuses other last four bytes. -/
structure NoticesDamage (read : Bytes → Except Error Bytes) (bytes : Bytes) : Prop where
  cut : ∀ front, front <+: bytes → front ≠ bytes →
    read front = .error (.decode (.frame (if front = [] then .noFrame else .truncated)))
  checksum : ∀ other : Bytes, other.length = bytes.length →
    other.take (bytes.length - 4) = bytes.take (bytes.length - 4) → other ≠ bytes →
    read other = .error (.decode (.frame .checksum))

/-- **A frame that is cut, or has another checksum, never yields bytes.**  This is so for everything
that is written, and for every other frame that ends in the checksum of its content, whatever its
blocks are, as long as no less than its content is asked for; also where lengths are 64-bit
numbers. -/
theorem damage_is_noticed (content : Bytes) (n : Nat) (hn : content.length ≤ n) :
    (∀ level, NoticesDamage (decompress · n) (compress level content).bytes) ∧
    (∀ bytes, Zstd.IsFrame bytes content →
      decompress bytes content.length = .ok content ∧ NoticesDamage (decompress · n) bytes ∧
      (content.length < UInt64.size - 1 → ∀ w : UInt64, w.toNat = n →
        NoticesDamage (decompressWord · w) bytes)) := by
  have hframe : ∀ bytes, Zstd.IsFrame bytes content → NoticesDamage (decompress · n) bytes :=
    fun bytes h =>
      { cut := fun front hfront hne =>
          decompress_of_fault (Zstd.decodeUpTo_of_cut h hn hfront hne)
        checksum := fun other hlen hfront hne =>
          decompress_of_fault (Zstd.decodeUpTo_of_otherChecksum h hn hlen hfront hne) }
  refine ⟨fun level => hframe _ (Zstd.isFrame_encode level content), fun bytes h =>
    ⟨decompress_eq_ok_iff.mpr ⟨Zstd.decode_of_isFrame h _, rfl⟩, hframe bytes h, ?_⟩⟩
  rintro hsmall w rfl
  have hle : content.length ≤ readingBound w - 1 := by
    rcases readingBound_cases w with hbound | ⟨-, hbound⟩ <;> omega
  exact
    { cut := fun front hfront hne =>
        decompressWord_of_fault (Zstd.decodeUpTo_of_cut h hle hfront hne)
      checksum := fun other hlen hfront hne =>
        decompressWord_of_fault (Zstd.decodeUpTo_of_otherChecksum h hle hlen hfront hne) }

/-- Three bytes: the frame without its last byte, by when all three have been read, and the frame
with another checksum. -/
theorem damage_is_noticed_three :
    let bytes := (compress 3 [1, 2, 3]).bytes
    decompress (bytes.take 15) 3 = .error (.decode (.frame .truncated)) ∧
      decompress [] 3 = .error (.decode (.frame .noFrame)) ∧
      decompress (bytes.take 12 ++ [0, 0, 0, 0]) 3 = .error (.decode (.frame .checksum)) ∧
      decompressWord (bytes.take 12 ++ [0, 0, 0, 0]) 3 = .error (.decode (.frame .checksum)) := by
  have hdamage := damage_is_noticed [1, 2, 3] 3 (by decide)
  have hwritten := hdamage.1 3
  have hword := (hdamage.2 _ (Zstd.isFrame_encode 3 [1, 2, 3])).2.2 (by decide) 3 rfl
  exact ⟨hwritten.cut _ (List.take_prefix _ _) (by decide +kernel),
    hwritten.cut [] (List.nil_prefix) (by decide +kernel),
    hwritten.checksum _ (by decide +kernel) (by decide +kernel) (by decide +kernel),
    hword.checksum _ (by decide +kernel) (by decide +kernel) (by decide +kernel)⟩

end ConstStore
