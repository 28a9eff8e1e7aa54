/-
# A cursor reads and writes where it is told to

A cursor leaves the position of its file alone when it believes to be there already.  That is
right as long as what it believes is true, which is `Cursor.Coherent`.  Every operation of a
coherent cursor acts at the offset that it is given, and leaves the cursor coherent, also when it
falls short.
-/
import ConstStore.Cursor

namespace ConstStore

/-- The bytes of a region, as far as there are any. -/
def Bytes.slice (content : Bytes) (offset length : Nat) : Bytes :=
  (content.drop offset).take length

theorem Bytes.length_slice {content : Bytes} {offset length : Nat}
    (h : offset + length ≤ content.length) : (content.slice offset length).length = length := by
  rw [slice, List.length_take, List.length_drop]
  omega

theorem Bytes.slice_append {front middle back : Bytes} {offset length : Nat}
    (ho : offset = front.length) (hl : length = middle.length) :
    Bytes.slice (front ++ (middle ++ back)) offset length = middle := by
  subst ho hl
  simp [slice]

/-- A region inside the front of a byte string. -/
theorem Bytes.slice_append_left {content : Bytes} {offset length : Nat}
    (h : offset + length ≤ content.length) (more : Bytes) :
    Bytes.slice (content ++ more) offset length = content.slice offset length := by
  rw [slice, slice, List.drop_append_of_le_length (by omega),
    List.take_append_of_le_length (by rw [List.length_drop]; omega)]

/-- A region behind the front of a byte string is one of what follows the front. -/
theorem Bytes.slice_drop (content : Bytes) (start offset length : Nat) :
    Bytes.slice (content.drop start) offset length = content.slice (start + offset) length := by
  rw [slice, slice, List.drop_drop]

theorem OpenFile.read_eq_slice (file : OpenFile) (content : Bytes) (n : Nat) :
    file.read content n = (content.slice file.position n,
      ⟨file.position + (content.slice file.position n).length⟩) := rfl

namespace Cursor

variable {cursor : Cursor}

/-! ## 1. What a cursor believes -/

/-- The position is where the cursor believes it to be. -/
def Coherent (cursor : Cursor) : Prop :=
  ∀ offset, cursor.known = some offset → cursor.file.position = offset

theorem coherent_new (position : Nat) : (new position).Coherent := by
  intro offset h
  exact Option.some.inj h

/-- Seeking leads to the offset, whether or not the position is moved. -/
theorem position_seek (h : cursor.Coherent) (offset : Nat) :
    (cursor.seek offset).file.position = offset := by
  unfold seek
  split
  · rename_i hk
    exact h offset hk
  · rfl

/-! ## 2. Reading -/

/-- **A coherent cursor reads the bytes at the offset**, or falls short where there are too
few. -/
theorem readAt_fst (h : cursor.Coherent) (content : Bytes) (offset length : Nat) :
    (cursor.readAt content offset length).1 =
      if (content.slice offset length).length = length then .ok (content.slice offset length)
      else .error .shortRead := by
  simp only [readAt, OpenFile.read_eq_slice, position_seek h]
  by_cases hlen : (content.slice offset length).length = length
  · rw [if_pos hlen, if_pos hlen]
  · rw [if_neg hlen, if_neg hlen]

theorem readAt_of_le (h : cursor.Coherent) {content : Bytes} {offset length : Nat}
    (hle : offset + length ≤ content.length) :
    (cursor.readAt content offset length).1 = .ok (content.slice offset length) := by
  rw [readAt_fst h, if_pos (Bytes.length_slice hle)]

theorem coherent_readAt (h : cursor.Coherent) (content : Bytes) (offset length : Nat) :
    (cursor.readAt content offset length).2.Coherent := by
  intro known hk
  simp only [readAt, OpenFile.read_eq_slice, position_seek h] at hk ⊢
  by_cases hlen : (content.slice offset length).length = length
  · rw [if_pos hlen] at hk ⊢
    rw [← Option.some.inj hk]
    simp only [hlen]
  · rw [if_neg hlen] at hk
    exact absurd hk (by simp)

/-! ## 3. Writing -/

/-- **Writing at the end appends.** -/
theorem writeAt_fst (h : cursor.Coherent) (content bytes : Bytes) :
    (cursor.writeAt content content.length bytes).1 = content ++ bytes := by
  simp only [writeAt, OpenFile.write, position_seek h]
  simp

theorem coherent_writeAt (h : cursor.Coherent) (content bytes : Bytes) (offset : Nat) :
    (cursor.writeAt content offset bytes).2.Coherent := by
  intro known hk
  simp only [writeAt, OpenFile.write, position_seek h, Option.some.injEq] at hk ⊢
  exact hk

/-! ## 4. Copying -/

/-- A coherent cursor copies the region at the offset, as far as there is any. -/
theorem copyRegion_fst (h : cursor.Coherent) (content : Bytes) (offset length : Nat) :
    (cursor.copyRegion content offset length).1 =
      if (content.slice offset length).length = length then .ok (content.slice offset length)
      else .error (.shortCopy (content.slice offset length).length length) := by
  simp only [copyRegion, OpenFile.read_eq_slice, position_seek h]
  by_cases hlen : (content.slice offset length).length = length
  · rw [if_pos hlen, if_pos hlen]
  · rw [if_neg hlen, if_neg hlen]

/-- **A coherent cursor copies the region at the offset.** -/
theorem copyRegion_of_le (h : cursor.Coherent) {content : Bytes} {offset length : Nat}
    (hle : offset + length ≤ content.length) :
    (cursor.copyRegion content offset length).1 = .ok (content.slice offset length) := by
  rw [copyRegion_fst h, if_pos (Bytes.length_slice hle)]

end Cursor
end ConstStore
