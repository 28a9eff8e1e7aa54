/-
# Which files are stores

A session reads a store by seven checks, one after the other.  `IsStore` says what they amount to:
it is a statement about the bytes of a file and a list of entries, without an order in which to
check it and without a bound on the numbers.

* `Contents.exists_parse_iff`: a file parses, to these entries, exactly when it is a store of them.
* `Contents.isFormat_of_parse`: a file that does not parse is rejected as a store.
* `Session.open_iff_isStore`: so opening accepts stores, and nothing else.
-/
import ConstStore.Proofs.Contents
import ConstStore.Proofs.Cursor
import ConstStore.Proofs.Session.Open

namespace ConstStore

/-! ## 1. Stores -/

/-- The number of eight bytes at an offset. -/
def Bytes.wordAt (bytes : Bytes) (offset : Nat) : Nat := toNat (bytes.slice offset 8)

/-- The bytes are a store of these entries: a header, a compressed index that lists them, and a
region of the size that they add up to. -/
structure IsStore (bytes : Bytes) (entries : List Entry) : Prop where
  header : Header.size ≤ bytes.length
  fingerprint : Header.storeFingerprint <+: bytes
  /-- The compressed index ends inside the file. -/
  inside : bytes.wordAt 8 ≤ bytes.length - Header.size
  /-- It has the length that the header declares.  Bytes behind the entries do not matter. -/
  index : ∃ content,
    decompress (bytes.slice Header.size (bytes.wordAt 8)) (bytes.wordAt 16) = .ok content ∧
      Codec.entries.encode entries <+: content
  distinct : (entries.map Entry.key).Nodup
  /-- The last record ends where the file does. -/
  total : Header.size + bytes.wordAt 8 + (entries.map fun e => e.size.toNat).sum = bytes.length

theorem Bytes.wordAt_lt (bytes : Bytes) (offset : Nat) : bytes.wordAt offset < UInt64.size := by
  have hmono : ∀ width ≤ 8, capacity width ≤ capacity 8 := by decide
  have hle : (bytes.slice offset 8).length ≤ 8 := by
    rw [slice, List.length_take]
    omega
  have hlt := toNat_lt (bytes.slice offset 8)
  rw [← Codec.capacity_eight]
  exact Nat.lt_of_lt_of_le hlt (hmono _ hle)

/-- It is a number of 64 bits. -/
theorem Bytes.toNat_wordAt (bytes : Bytes) (offset : Nat) :
    (UInt64.ofNat (bytes.wordAt offset)).toNat = bytes.wordAt offset :=
  UInt64.toNat_ofNat_of_lt' (bytes.wordAt_lt offset)

/-- The sizes of the records add up to what they take. -/
theorem extent_map_span (entries : List Entry) :
    extent (entries.map Entry.span) = (entries.map fun e => e.size.toNat).sum := by
  induction entries with
  | nil => rfl
  | cons e entries ih =>
    rw [List.map_cons, extent_cons, ih, List.map_cons, List.sum_cons]
    rfl

/-! ## 2. What each step accepts -/

/-- **A header is accepted** when it is complete and starts with the fingerprint. -/
theorem Header.decode_eq_ok_iff {bytes : Bytes} {header : Header} :
    Header.decode bytes = .ok header ↔ size ≤ bytes.length ∧ storeFingerprint <+: bytes ∧
      header = ofIndex (UInt64.ofNat (bytes.wordAt 8)) (UInt64.ofNat (bytes.wordAt 16)) := by
  have hprefix : storeFingerprint <+: bytes ↔ bytes.take 8 = storeFingerprint := by
    rw [List.prefix_iff_eq_take, eq_comm]
    rfl
  rw [decode, hprefix]
  by_cases hlen : bytes.length < size
  · simp [hlen, Nat.not_le.mpr hlen]
  by_cases hfront : bytes.take 8 = storeFingerprint
  · simp only [if_neg hlen, hfront, ne_eq, not_true_eq_false, if_false, Except.ok.injEq,
      Nat.le_of_not_lt hlen, true_and]
    exact eq_comm
  · simp [hlen, hfront]

/-- The header of a file is read from its first bytes only. -/
theorem Header.decode_take (bytes : Bytes) : decode (bytes.take size) = decode bytes := by
  have hlength : (bytes.take size).length < size ↔ bytes.length < size := by
    rw [List.length_take]
    omega
  have hfront : (bytes.take size).take 8 = bytes.take 8 := by
    rw [List.take_take]
    rfl
  have hword : ∀ offset, offset + 8 ≤ size →
      ((bytes.take size).drop offset).take 8 = (bytes.drop offset).take 8 := by
    intro offset hle
    rw [List.drop_take, List.take_take, Nat.min_eq_left (by omega)]
  simp only [decode, hlength, hfront, hword 8 (by decide), hword 16 (by decide)]

theorem Header.decode_take_eq_ok_iff {bytes : Bytes} {header : Header} :
    Header.decode (bytes.take size) = .ok header ↔
      size ≤ bytes.length ∧ storeFingerprint <+: bytes ∧
        header = ofIndex (UInt64.ofNat (bytes.wordAt 8)) (UInt64.ofNat (bytes.wordAt 16)) := by
  rw [decode_take, decode_eq_ok_iff]

/-- What has been decompressed has the length that was asked for. -/
theorem length_of_decompress {bytes content : Bytes} {length : Nat}
    (h : decompress bytes length = .ok content) : content.length = length := by
  unfold decompress at h
  split at h
  · exact absurd h (by simp)
  · split at h
    · rename_i hlen
      rwa [← Except.ok.inj h]
    · exact absurd h (by simp)

/-- What cannot be decompressed is a broken frame, or its content has another length. -/
theorem decompress_eq_error {bytes : Bytes} {length : Nat} {e : Error}
    (h : decompress bytes length = .error e) :
    (∃ cause, e = .decode cause) ∨
      ∃ actual, actual ≠ length ∧ e = .recordLength length actual := by
  rw [decompress] at h
  split at h
  · exact Or.inl ⟨_, (Except.error.inj h).symm⟩
  · rename_i content _
    split at h
    · exact absurd h (by simp)
    · rename_i hne
      exact Or.inr ⟨content.length, hne, (Except.error.inj h).symm⟩

/-- **An index is accepted** when it decompresses to a serialized index, whatever follows. -/
theorem Index.decode_eq_ok_iff {bytes : Bytes} {length : Nat} (h : length < UInt64.size)
    {index : Index} :
    Index.decode bytes length = .ok index ↔ ∃ content, decompress bytes length = .ok content ∧
      Codec.entries.encode index.entries <+: content := by
  rw [decode]
  cases hd : decompress bytes length with
  | error e => simp
  | ok content =>
    have hlen := length_of_decompress hd
    simp only [Except.ok.injEq, exists_eq_left']
    constructor
    · intro hi
      cases hr : Codec.entries.read content with
      | error fault => simp [hr] at hi
      | ok entries =>
        rw [hr, Except.ok.injEq] at hi
        obtain ⟨⟨entries', rest⟩, hread, rfl⟩ := Fallible.map_eq_ok.mp hr
        obtain ⟨-, rfl⟩ := (Codec.entries_exact _ _ _).mp hread
        exact hi ▸ ⟨rest, rfl⟩
    · rintro ⟨rest, rfl⟩
      -- the entries fit into the format because the index has a length of 64 bits
      have hfits : Codec.EntriesFit index.entries := by
        refine Codec.entries_fitsByLength _ ?_
        rw [List.length_append] at hlen
        omega
      rw [Codec.entries_exact.read_encode hfits]

/-- **A file that parses is a store** of the entries that are read. -/
theorem IsStore.of_parse {bytes : Bytes} {contents : Contents}
    (h : Contents.parse bytes = .ok contents) : IsStore bytes contents.index.entries := by
  obtain ⟨hdistinct, -, htotal⟩ := Contents.parse_eq_ok h
  obtain ⟨hheader, hinside, hindex, -, -⟩ := Contents.parse_eq_ok_iff.mp h
  obtain ⟨hlong, hfingerprint, hnumbers⟩ := Header.decode_take_eq_ok_iff.mp hheader
  simp only [hnumbers, Header.ofIndex, Header.dataOffset, Bytes.toNat_wordAt]
    at hinside hindex htotal
  exact {
    header := hlong
    fingerprint := hfingerprint
    inside := hinside
    index := (Index.decode_eq_ok_iff (bytes.wordAt_lt 16)).mp hindex
    distinct := hdistinct
    total := by rw [← extent_map_span]; exact htotal }

/-- **A file parses** exactly when it is a store, and to the entries that it is a store of. -/
theorem Contents.exists_parse_iff {bytes : Bytes} (h : bytes.length < UInt64.size)
    {entries : List Entry} :
    (∃ contents, parse bytes = .ok contents ∧ contents.index.entries = entries) ↔
      IsStore bytes entries := by
  constructor
  · rintro ⟨contents, hparse, rfl⟩
    exact .of_parse hparse
  · intro hs
    have htotal := hs.total
    rw [← extent_map_span] at htotal
    have hlookup : Lookup.build ⟨entries⟩ (Header.size + bytes.wordAt 8)
        = .ok (.layout (Header.size + bytes.wordAt 8) (entries.map Entry.span)) :=
      Lookup.build_of_nodup hs.distinct (htotal ▸ h)
    have hparses : Parses bytes
        ⟨.ofIndex (UInt64.ofNat (bytes.wordAt 8)) (UInt64.ofNat (bytes.wordAt 16)), ⟨entries⟩,
          .layout (Header.size + bytes.wordAt 8) (entries.map Entry.span)⟩ := by
      refine ⟨Header.decode_take_eq_ok_iff.mpr ⟨hs.header, hs.fingerprint, rfl⟩, ?_, ?_, ?_, ?_⟩
      all_goals simp only [Header.ofIndex, Header.dataOffset, Bytes.toNat_wordAt]
      · exact hs.inside
      · exact (Index.decode_eq_ok_iff (bytes.wordAt_lt 16)).mpr hs.index
      · exact hlookup
      · rw [Lookup.layout_endOffset, htotal]
    exact ⟨_, parse_eq_ok_iff.mpr hparses, rfl⟩

/-! ## 3. What is rejected -/

theorem Header.isFormat_of_decode {bytes : Bytes} {e : Error}
    (h : Header.decode bytes = .error e) : e.isFormat = true := by
  unfold decode at h
  split at h
  · exact Except.error.inj h ▸ rfl
  · split at h
    · exact Except.error.inj h ▸ rfl
    · exact absurd h (by simp)

theorem Index.isFormat_of_decode {bytes : Bytes} {length : Nat} {e : Error}
    (h : Index.decode bytes length = .error e) : e.isFormat = true := by
  unfold decode at h
  split at h
  · exact Except.error.inj h ▸ rfl
  · split at h
    · exact Except.error.inj h ▸ rfl
    · exact absurd h (by simp)

theorem Lookup.isFormat_of_append {lookup : Lookup} {ordinal : Nat} {entry : Entry} {e : Error}
    (h : lookup.append ordinal entry = .error e) : e.isFormat = true := by
  unfold append at h
  split at h
  · exact Except.error.inj h ▸ rfl
  · split at h
    · exact Except.error.inj h ▸ rfl
    · exact absurd h (by simp)

theorem Lookup.isFormat_of_appendAll {e : Error} (entries : List Entry) :
    ∀ {lookup : Lookup} {ordinal : Nat}, lookup.appendAll ordinal entries = .error e →
      e.isFormat = true := by
  induction entries with
  | nil => exact nofun
  | cons entry entries ih =>
    intro lookup ordinal h
    unfold appendAll at h
    split at h
    · rename_i error ha
      exact isFormat_of_append (Except.error.inj h ▸ ha)
    · exact ih h

theorem Fallible.isFormat_of_guard {error e : Error} {p : Prop} [Decidable p]
    (h : Fallible.guard error p = .error e) (he : error.isFormat = true) : e.isFormat = true := by
  unfold guard at h
  split at h
  · exact absurd h (by simp)
  · exact Except.error.inj h ▸ he

/-- **A file that does not parse is rejected as a store**, whichever check it fails. -/
theorem Contents.isFormat_of_parse {bytes : Bytes} {e : Error}
    (h : parse bytes = .error e) : e.isFormat = true := by
  rcases Fallible.bind_eq_error.mp h with h | ⟨header, -, h⟩
  · exact Header.isFormat_of_decode h
  rcases Fallible.bind_eq_error.mp h with h | ⟨_, -, h⟩
  · exact Fallible.isFormat_of_guard h rfl
  rcases Fallible.bind_eq_error.mp h with h | ⟨index, -, h⟩
  · exact Index.isFormat_of_decode h
  rcases Fallible.bind_eq_error.mp h with h | ⟨lookup, -, h⟩
  · exact Lookup.isFormat_of_appendAll _ h
  rcases Fallible.bind_eq_error.mp h with h | ⟨_, -, h⟩
  · exact Fallible.isFormat_of_guard h rfl
  · exact absurd h nofun

/-! ## 4. Opening -/

namespace Session

variable {fs : FileSystem} {path : String} {node : NodeId} {bytes : Bytes} {mode : Mode}

/-- Opening a file is parsing it. -/
theorem open_of_file (hnode : fs.follow path = .ok node) (hbytes : fs.contentOf node = .ok bytes)
    (hmode : mode ≠ .create) (config : SessionConfig) :
    (Session.open fs path mode config).value = (Contents.parse bytes).map fun contents =>
      ofBase path mode config (BaseFile.ofContents fs node contents) contents := by
  rw [open_value, if_neg hmode]
  simp only [BaseFile.open, hnode, hbytes]
  cases Contents.parse bytes <;> rfl

/-- **Opening accepts stores, and nothing else.**  Where a path leads to a file, whose size is a
number of 64 bits, opening it to read or to extend it loads the entries that it is a store of; if
it is none, opening rejects the file as a store, and never fails in another way. -/
theorem open_iff_isStore (hnode : fs.follow path = .ok node)
    (hbytes : fs.contentOf node = .ok bytes) (hsize : bytes.length < UInt64.size)
    (hmode : mode ≠ .create) (config : SessionConfig) :
    (∀ entries, (∃ session, (Session.open fs path mode config).value = .ok session ∧
        session.index.entries = entries) ↔ IsStore bytes entries) ∧
      ((¬ ∃ entries, IsStore bytes entries) ↔ ∃ e,
        (Session.open fs path mode config).value = .error e ∧ e.isFormat = true) := by
  rw [open_of_file hnode hbytes hmode]
  refine ⟨fun entries => ?_, ?_⟩
  · rw [← Contents.exists_parse_iff hsize]
    cases Contents.parse bytes with
    | error e => simp [Except.map]
    | ok contents => simp [Except.map, ofBase]
  · simp only [← Contents.exists_parse_iff hsize]
    cases hparse : Contents.parse bytes with
    | error e => simp [Except.map, Contents.isFormat_of_parse hparse]
    | ok contents => simp [Except.map]

/-- A file system with a store of one record, and with a file that is too short for a store. -/
def storeAndScrap : FileSystem where
  nodes := #[.directory ⟨[("a", 1), ("b", 2)], FileSystem.root, 0o755, 0⟩,
    .file ⟨Contents.front ⟨[⟨[1], UInt64.ofNat (compress defaultLevel [2]).size, 1, none⟩]⟩
      defaultLevel ++ (compress defaultLevel [2]).bytes, 0o644, 0⟩,
    .file ⟨Header.storeFingerprint, 0o644, 0⟩]
  clock := 2

/-- The store is opened, and the other file is rejected. -/
theorem open_storeAndScrap :
    (∃ bytes entries, storeAndScrap.contentOf 1 = .ok bytes ∧ entries.map Entry.key = [[1]] ∧
        IsStore bytes entries) ∧
      ∃ e, (Session.open storeAndScrap "b" .read .default).value = .error e ∧
        e.isFormat = true := by
  constructor
  · have hopen : ∃ session, (Session.open storeAndScrap "a" .write .default).value = .ok session ∧
        session.index.entries.map Entry.key = [[1]] := by
      refine ⟨match (Session.open storeAndScrap "a" .write .default).value with
        | .ok session => session
        | .error _ => ofNothing "a" .default .absent, ?_, ?_⟩
      all_goals decide +kernel
    obtain ⟨session, hopen, hkeys⟩ := hopen
    have hstore := (@open_iff_isStore storeAndScrap "a" 1 _ .write rfl rfl (by decide +kernel)
      (by decide) .default).1 session.index.entries
    exact ⟨_, _, rfl, hkeys, hstore.mp ⟨session, hopen, rfl⟩⟩
  · refine (@open_iff_isStore storeAndScrap "b" 2 _ .read rfl rfl (by decide +kernel)
      (by decide) .default).2.mp ?_
    rintro ⟨entries, hs⟩
    exact absurd hs.header (by decide)

end Session
end ConstStore
