/-
# What an index is read from

The index of a store is a list of entries, written in a fixed layout and compressed.  Nothing is
left out of the layout and nothing in it is ambiguous, so reading gives back the very entries that
were written, and accepts a frame just where its content starts with the layout of some entries.

* `Index.serialize_eq`: the layout, byte for byte.
* `Index.decode_eq_error`: the three ways in which an index cannot be read.
* `Index.codec_exact`: what is read of a compressed index for every declared length, and which
  frames are read as which index.
-/
import ConstStore.Proofs.Format

namespace ConstStore

/-! ## 1. The layout -/

/-- An entry as it is written: the key behind its length, the two numbers of the record, and the
metadata, if there is any, behind a tag and its length.  All numbers have eight bytes. -/
def Entry.layout (entry : Entry) : Bytes :=
  Bytes.ofNat 8 entry.key.length ++ entry.key ++
    Bytes.ofNat 8 entry.size.toNat ++ Bytes.ofNat 8 entry.length.toNat ++
    match entry.metadata with
    | none => [0]
    | some metadata => 1 :: (Bytes.ofNat 8 metadata.length ++ metadata)

theorem Entry.encode_eq (entry : Entry) : Codec.entry.encode entry = entry.layout := by
  obtain ⟨key, size, length, metadata⟩ := entry
  cases metadata <;>
    simp only [Codec.entry, Codec.map, Codec.pair, Codec.bytes, Codec.u64, Codec.option,
      Codec.writeLength, layout, List.append_assoc]

namespace Index

/-- **The layout of an index**: the number of its entries, and one entry behind the other. -/
theorem serialize_eq (index : Index) :
    index.serialize = Bytes.ofNat 8 index.entries.length ++ index.entries.flatMap Entry.layout := by
  rw [← funext Entry.encode_eq]
  rfl

/-! ## 2. Compressed indexes -/

/-- **A compressed index** is read back with its length, and with no other. -/
theorem decode_encode_eq {index : Index} (h : Codec.EntriesFit index.entries) (level : Zstd.Level)
    (n : Nat) : decode (index.encode level).bytes n =
      if n = (index.encode level).length then .ok index
      else .error (.index (.lengthMismatch (min (index.encode level).length (n + 1)) n)) := by
  split
  · rename_i heq
    subst heq
    exact decode_encode h level
  · rename_i hne
    have hread : decompress (index.encode level).bytes n
        = .error (.recordLength n (min (index.encode level).length (n + 1))) := by
      have hdecode : Zstd.decode n (index.encode level).bytes = .ok index.serialize :=
        Zstd.decode_encode level index.serialize n
      rw [decompress_of_decode hdecode]
      exact if_neg (Ne.symm hne)
    rw [decode, hread]
    rfl

variable {frame : Bytes} {n : Nat} {error : Error}

/-- **Why an index cannot be read**: its frame is broken, its content has another length than
declared, or it is no list of entries. -/
theorem decode_eq_error (h : decode frame n = .error error) :
    (∃ cause, decompress frame n = .error (.decode cause) ∧
      error = .index (.undecodable cause)) ∨
    (∃ actual, actual ≠ n ∧ decompress frame n = .error (.recordLength n actual) ∧
      error = .index (.lengthMismatch actual n)) ∨
    ∃ content fault, decompress frame n = .ok content ∧
      Codec.entries.read content = .error fault ∧
      error = .index (.undecodable (.value fault)) := by
  rw [decode] at h
  cases hread : decompress frame n with
  | error reason =>
    rw [hread] at h
    obtain rfl := Except.error.inj h
    rcases decompress_eq_error hread with ⟨cause, rfl⟩ | ⟨actual, hne, rfl⟩
    · exact Or.inl ⟨cause, rfl, rfl⟩
    · exact Or.inr (Or.inl ⟨actual, hne, rfl, rfl⟩)
  | ok content =>
    simp only [hread] at h
    cases hentries : Codec.entries.read content with
    | error fault =>
      rw [hentries] at h
      exact Or.inr (Or.inr ⟨content, fault, rfl, hentries, (Except.error.inj h).symm⟩)
    | ok entries =>
      rw [hentries] at h
      exact absurd h (by simp)

/-- **The format of an index is exact.**

* Whatever entries are written, with the length that is reported they are what is read.  With any
  other length the index is refused, with what has been read of it, one byte too many at most.
* Whatever bytes are read, they are an index just where they decompress to its layout and perhaps
  more, and nothing else can be read there.
* Everything else is refused as a broken index. -/
theorem codec_exact :
    (∀ (index : Index) (level : Zstd.Level), Codec.EntriesFit index.entries → ∀ n : Nat,
      decode (index.encode level).bytes n =
        if n = (index.encode level).length then .ok index
        else .error (.index (.lengthMismatch (min (index.encode level).length (n + 1)) n))) ∧
    (∀ (frame : Bytes) (n : UInt64) (index : Index), decode frame n.toNat = .ok index ↔
      ∃ rest, decompress frame n.toNat = .ok
        (Bytes.ofNat 8 index.entries.length ++ index.entries.flatMap Entry.layout ++ rest)) ∧
    (∀ (frame : Bytes) (n : Nat) (error : Error), decode frame n = .error error →
      (∃ actual, actual ≠ n ∧ error = .index (.lengthMismatch actual n)) ∨
        ∃ cause, error = .index (.undecodable cause)) := by
  refine ⟨fun index level h n => decode_encode_eq h level n, fun frame n index => ?_,
    fun frame n error h => ?_⟩
  · rw [← serialize_eq, decode_eq_ok_iff n.toNat_lt_size]
    constructor
    · rintro ⟨content, hread, rest, rfl⟩
      exact ⟨rest, hread⟩
    · rintro ⟨rest, hread⟩
      exact ⟨_, hread, rest, rfl⟩
  · rcases decode_eq_error h with ⟨cause, -, rfl⟩ | ⟨actual, hne, -, rfl⟩ | ⟨_, fault, -, -, rfl⟩
    · exact Or.inr ⟨cause, rfl⟩
    · exact Or.inl ⟨actual, hne, rfl⟩
    · exact Or.inr ⟨.value fault, rfl⟩

/-- Three entries, two of them with one key, read back with the length that they have and not with
another; the same content with a byte behind it; and five bytes that are no index. -/
theorem codec_exact_three :
    let index : Index := ⟨[⟨[1], 5, 9, none⟩, ⟨[1], 18446744073709551615, 0, some []⟩,
      ⟨[], 0, 7, some [2, 3]⟩]⟩
    decode (index.encode 3).bytes (index.encode 3).length = .ok index ∧
      decode (index.encode 3).bytes 4 = .error (.index (.lengthMismatch 5 4)) ∧
      (∃ rest, decompress (compress 3 (index.serialize ++ [7])).bytes 104
        = .ok (Bytes.ofNat 8 3 ++ index.entries.flatMap Entry.layout ++ rest)) ∧
      ∃ cause, decode (compress 3 [255, 255, 255, 255, 255]).bytes 5
        = .error (.index (.undecodable cause)) := by
  intro index
  have hfits : Codec.EntriesFit index.entries :=
    Codec.entries_fitsByLength _ (by decide +kernel : index.serialize.length < UInt64.size)
  have hmore : decode (compress 3 (index.serialize ++ [7])).bytes (104 : UInt64).toNat
      = .ok index := by
    decide +kernel
  have hlength : (index.encode 3).length = 103 := by decide +kernel
  have hwritten := codec_exact.1 index 3 hfits
  refine ⟨by rw [hwritten, if_pos rfl], ?_, (codec_exact.2.1 _ 104 index).mp hmore, ?_⟩
  · rw [hwritten, hlength]
    rfl
  · have hrefused : decode (compress 3 [255, 255, 255, 255, 255]).bytes 5
        = .error (.index (.undecodable (.value .endOfInput))) := by
      decide +kernel
    rcases codec_exact.2.2 _ _ _ hrefused with ⟨actual, -, hother⟩ | ⟨cause, hcause⟩
    · exact absurd hother (by simp)
    · exact ⟨cause, hcause ▸ hrefused⟩

end Index
end ConstStore
