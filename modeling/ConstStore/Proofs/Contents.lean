/-
# The bytes of a store

A store is its front, which is the header and the compressed index, and behind that the region of
its records.  `Contents.front` writes a front; the sessions write theirs like that.

* `parse_eq_ok`: what is known of a file that parses.
* `parse_front_append`: a front with a region of the size that its index describes parses, and
  gives the index back.
-/
import ConstStore.BaseFile
import ConstStore.Proofs.Codec
import ConstStore.Proofs.Lookup
import ConstStore.Proofs.Zstd.RoundTrip

namespace ConstStore

/-! ## 1. Headers -/

namespace Header

theorem length_encode_ofIndex (indexSize indexLength : UInt64) :
    (ofIndex indexSize indexLength).encode.length = size := by
  simp [encode, ofIndex, storeFingerprint, Codec.u64, size]

/-- The eight bytes of a number, read back. -/
theorem ofNat_toNat_encode (n : UInt64) : UInt64.ofNat (Bytes.toNat (Codec.u64.encode n)) = n := by
  have hlt : n.toNat < Bytes.capacity 8 := by
    rw [Codec.capacity_eight]
    exact n.toNat_lt
  rw [Codec.u64, Bytes.toNat_ofNat, Nat.mod_eq_of_lt hlt, UInt64.ofNat_toNat]

/-- **A header is read back**, whatever follows it. -/
theorem decode_encode (indexSize indexLength : UInt64) (rest : Bytes) :
    decode ((ofIndex indexSize indexLength).encode ++ rest)
      = .ok (ofIndex indexSize indexLength) := by
  have hlen : ¬ ((ofIndex indexSize indexLength).encode ++ rest).length < size := by
    rw [List.length_append, length_encode_ofIndex]
    omega
  have hsplit : (ofIndex indexSize indexLength).encode ++ rest
      = storeFingerprint ++ (Codec.u64.encode indexSize
        ++ (Codec.u64.encode indexLength ++ rest)) := by
    simp only [encode, ofIndex, List.append_assoc]
  have h8 : (Codec.u64.encode indexSize).length = 8 := Bytes.length_ofNat 8 _
  have h8' : (Codec.u64.encode indexLength).length = 8 := Bytes.length_ofNat 8 _
  have hf : storeFingerprint.length = 8 := rfl
  have hfront : ((ofIndex indexSize indexLength).encode ++ rest).take 8 = storeFingerprint := by
    rw [hsplit, List.take_left' hf]
  have hsize : ((((ofIndex indexSize indexLength).encode ++ rest).drop 8).take 8)
      = Codec.u64.encode indexSize := by
    rw [hsplit, List.drop_left' hf, List.take_left' h8]
  have hlength : ((((ofIndex indexSize indexLength).encode ++ rest).drop 16).take 8)
      = Codec.u64.encode indexLength := by
    rw [hsplit, ← List.append_assoc, List.drop_left' (by rw [List.length_append, hf, h8]),
      List.take_left' h8']
  simp only [decode, if_neg hlen, hfront, ne_eq, not_true_eq_false, if_false, hsize, hlength,
    ofNat_toNat_encode]

end Header

/-! ## 2. Indexes -/

namespace Index

/-- **A compressed index is read back.** -/
theorem decode_encode {index : Index} (h : Codec.EntriesFit index.entries)
    (level : Zstd.Level) :
    decode (index.encode level).bytes index.serialize.length = .ok index := by
  have hread := Codec.entries_exact.read_encode h []
  rw [List.append_nil] at hread
  rw [decode, encode, decompress_compress]
  simp only [serialize, hread]

end Index

/-! ## 3. Whole files -/

namespace Contents

/-- The front of a store with this index. -/
def front (index : Index) (level : Zstd.Level) : Bytes :=
  (Header.ofIndex (UInt64.ofNat (index.encode level).size)
    (UInt64.ofNat (index.encode level).length)).encode ++ (index.encode level).bytes

theorem length_front (index : Index) (level : Zstd.Level) :
    (front index level).length = Header.size + (index.encode level).size := by
  rw [front, List.length_append, Header.length_encode_ofIndex]
  rfl

/-- The bytes pass every check, and these contents are what they say. -/
structure Parses (bytes : Bytes) (contents : Contents) : Prop where
  header : Header.decode (bytes.take Header.size) = .ok contents.header
  inside : contents.header.indexSize.toNat ≤ bytes.length - Header.size
  index : Index.decode ((bytes.drop Header.size).take contents.header.indexSize.toNat)
    contents.header.indexLength.toNat = .ok contents.index
  lookup : Lookup.build contents.index contents.header.dataOffset = .ok contents.lookup
  size : contents.lookup.endOffset = bytes.length

/-- **A file parses** when it passes one check after the other. -/
theorem parse_eq_ok_iff {bytes : Bytes} {contents : Contents} :
    parse bytes = .ok contents ↔ Parses bytes contents := by
  constructor
  · intro h
    obtain ⟨header, hheader, h⟩ := Fallible.bind_eq_ok.mp h
    obtain ⟨_, hinside, h⟩ := Fallible.bind_eq_ok.mp h
    obtain ⟨index, hindex, h⟩ := Fallible.bind_eq_ok.mp h
    obtain ⟨lookup, hlookup, h⟩ := Fallible.bind_eq_ok.mp h
    obtain ⟨_, hsize, h⟩ := Fallible.bind_eq_ok.mp h
    obtain rfl := Fallible.pure_eq_ok.mp h
    exact ⟨hheader, Fallible.guard_eq_ok.mp hinside, hindex, hlookup,
      Fallible.guard_eq_ok.mp hsize⟩
  · intro h
    exact Fallible.bind_eq_ok.mpr ⟨_, h.header, Fallible.bind_eq_ok.mpr
      ⟨(), Fallible.guard_eq_ok.mpr h.inside, Fallible.bind_eq_ok.mpr ⟨_, h.index,
        Fallible.bind_eq_ok.mpr ⟨_, h.lookup, Fallible.bind_eq_ok.mpr
          ⟨(), Fallible.guard_eq_ok.mpr h.size, rfl⟩⟩⟩⟩⟩

/-- **What is known of a file that parses**: its keys are distinct, its lookup is the layout of its
entries, and the last record ends where the file does. -/
theorem parse_eq_ok {bytes : Bytes} {contents : Contents} (h : parse bytes = .ok contents) :
    (contents.index.entries.map Entry.key).Nodup ∧
      contents.lookup = Lookup.layout contents.header.dataOffset
        (contents.index.entries.map Entry.span) ∧
      contents.header.dataOffset + extent (contents.index.entries.map Entry.span)
        = bytes.length := by
  have h := parse_eq_ok_iff.mp h
  obtain ⟨hd, hl, -⟩ := Lookup.build_eq_ok h.lookup
  have hsize := h.size
  rw [hl, Lookup.layout_endOffset] at hsize
  exact ⟨hd, hl, hsize⟩

/-- What a store with such a front says. -/
def ofIndex (index : Index) (level : Zstd.Level) : Contents where
  header := .ofIndex (UInt64.ofNat (index.encode level).size)
    (UInt64.ofNat (index.encode level).length)
  index := index
  lookup := .layout (front index level).length (index.entries.map Entry.span)

/-- **A front with a region that fits its index parses**, and its records start behind the
front. -/
theorem parse_front_append {index : Index} {level : Zstd.Level} {region : Bytes}
    (hd : (index.entries.map Entry.key).Nodup)
    (hi : index.serialize.length < UInt64.size)
    (hr : region.length = extent (index.entries.map Entry.span))
    (hs : (front index level ++ region).length < UInt64.size) :
    parse (front index level ++ region) = .ok (ofIndex index level) ∧
      (ofIndex index level).header.dataOffset = (front index level).length := by
  have hlen : (front index level ++ region).length
      = (front index level).length + extent (index.entries.map Entry.span) := by
    rw [List.length_append, hr]
  have hfront := length_front index level
  have hz : (UInt64.ofNat (index.encode level).size).toNat = (index.encode level).size :=
    UInt64.toNat_ofNat_of_lt' (by omega)
  have hn : (UInt64.ofNat (index.encode level).length).toNat = index.serialize.length :=
    UInt64.toNat_ofNat_of_lt' hi
  have hoffset : Header.dataOffset (.ofIndex (UInt64.ofNat (index.encode level).size)
      (UInt64.ofNat (index.encode level).length)) = (front index level).length := by
    rw [hfront]
    exact congrArg (Header.size + ·) hz
  have hhead : (front index level ++ region).take Header.size
      = (Header.ofIndex (UInt64.ofNat (index.encode level).size)
        (UInt64.ofNat (index.encode level).length)).encode := by
    rw [front, List.append_assoc, List.take_left' (Header.length_encode_ofIndex _ _)]
  have hbody : ((front index level ++ region).drop Header.size).take (index.encode level).size
      = (index.encode level).bytes := by
    rw [front, List.append_assoc, List.drop_left' (Header.length_encode_ofIndex _ _)]
    exact List.take_left' rfl
  have hdecode := Header.decode_encode (UInt64.ofNat (index.encode level).size)
    (UInt64.ofNat (index.encode level).length) []
  rw [List.append_nil] at hdecode
  refine ⟨parse_eq_ok_iff.mpr ⟨hhead ▸ hdecode, ?_, ?_, ?_, ?_⟩, hoffset⟩
  · show (UInt64.ofNat (index.encode level).size).toNat ≤ _
    omega
  · show Index.decode (((front index level ++ region).drop Header.size).take
      (UInt64.ofNat (index.encode level).size).toNat)
      (UInt64.ofNat (index.encode level).length).toNat = _
    rw [hz, hn, hbody, Index.decode_encode (Codec.entries_fitsByLength _ hi)]
    rfl
  · show Lookup.build index (Header.dataOffset (.ofIndex _ _)) = _
    rw [hoffset]
    exact Lookup.build_of_nodup hd (hlen ▸ hs)
  · show (Lookup.layout (front index level).length _).endOffset = _
    rw [Lookup.layout_endOffset, hlen]

end Contents
end ConstStore
