/-
# Damage that opening notices

A store has no checksum over its header, and its records are not looked at when it is opened.
Still, no header but its own goes with what stands behind it, and neither a part of a store nor a
store with something behind it is accepted.

A header with another index size makes the index end elsewhere, perhaps at the end of a record, so
that it decompresses all the same.  But streams are read frame by frame, so the entries that are
read are still those of the shorter index, and their sizes add up to the size of the file from one
place only.

* `IsStore.eq_of_rest`: two stores that are the same behind their headers are the same.
* `Contents.parse_of_front`: reading a store looks at its front, and at its size.
* `Session.open_of_other_header`: a store with another header is rejected.
* `Session.open_of_other_length`: a store that is cut off or has got longer is rejected.
-/
import ConstStore.Proofs.Format
import ConstStore.Proofs.Zstd.Stream

namespace ConstStore

/-! ## 1. Opening the file at a path -/

/-- Opening what is at a path, to read or to extend it, fails with this error, which says that it
is no store. -/
def FileSystem.Rejects (fs : FileSystem) (path : String) (e : Error) : Prop :=
  e.isFormat = true ∧ ∀ mode config, mode ≠ .create →
    (Session.open fs path mode config).value = .error e

namespace Session

variable {fs : FileSystem} {path : String} {bytes : Bytes} {mode : Mode}
  {config : SessionConfig} {session : Session}

theorem open_of_load (hload : fs.load path = .ok bytes) (hmode : mode ≠ .create)
    (config : SessionConfig) :
    ∃ node, (Session.open fs path mode config).value = (Contents.parse bytes).map
      fun contents => ofBase path mode config (.ofContents fs node contents) contents := by
  obtain ⟨node, hnode, hbytes⟩ := Fallible.bind_eq_ok.mp hload
  exact ⟨node, open_of_file hnode hbytes hmode config⟩

/-- What is accepted has been parsed. -/
theorem parse_of_open (hload : fs.load path = .ok bytes) (hmode : mode ≠ .create)
    (hopen : (Session.open fs path mode config).value = .ok session) :
    ∃ contents, Contents.parse bytes = .ok contents ∧
      session.header? = some contents.header := by
  obtain ⟨node, hvalue⟩ := open_of_load hload hmode config
  rw [hvalue] at hopen
  obtain ⟨contents, hparse, rfl⟩ := Fallible.map_eq_ok.mp hopen
  exact ⟨contents, hparse, rfl⟩

end Session

/-- What does not parse is rejected. -/
theorem FileSystem.rejects_of_parse {fs : FileSystem} {path : String} {bytes : Bytes} {e : Error}
    (hload : fs.load path = .ok bytes) (hparse : Contents.parse bytes = .error e) :
    fs.Rejects path e := by
  refine ⟨Contents.isFormat_of_parse hparse, fun mode config hmode => ?_⟩
  obtain ⟨node, hvalue⟩ := Session.open_of_load hload hmode config
  rw [hvalue, hparse]
  rfl

/-! ## 2. The header goes with the rest -/

/-- A byte string starts with a fingerprint and two numbers. -/
theorem Bytes.take_header {bytes : Bytes} (h : Header.size ≤ bytes.length)
    (hf : Header.storeFingerprint <+: bytes) :
    bytes.take Header.size
      = Header.storeFingerprint ++ (ofNat 8 (bytes.wordAt 8) ++ ofNat 8 (bytes.wordAt 16)) := by
  have hword : ∀ offset, offset + 8 ≤ bytes.length →
      ofNat 8 (bytes.wordAt offset) = bytes.slice offset 8 := by
    intro offset hle
    have hword := ofNat_toNat (bytes.slice offset 8)
    rwa [length_slice hle] at hword
  have hsize : Header.size = 8 + (8 + 8) := rfl
  rw [hsize] at h
  have hfront : Header.storeFingerprint = bytes.take 8 := List.prefix_iff_eq_take.mp hf
  rw [hfront, hword 8 (by omega), hword 16 (by omega), hsize, List.take_add, List.take_add,
    List.drop_drop]
  rfl

namespace IsStore

variable {bytes bytes' : Bytes} {entries entries' : List Entry}

/-- Behind the same header there are the same bytes, as far as an index reaches. -/
theorem slice_front (hrest : bytes'.drop Header.size = bytes.drop Header.size)
    (hle : bytes.wordAt 8 ≤ bytes'.wordAt 8) :
    bytes.slice Header.size (bytes.wordAt 8) <+: bytes'.slice Header.size (bytes'.wordAt 8) := by
  rw [Bytes.slice, Bytes.slice, hrest]
  exact List.take_prefix_take_left hle

/-- **Two stores that are the same behind their headers have the same index**, when the shorter
index is a front of the longer one. -/
theorem entries_eq (h : IsStore bytes entries) (h' : IsStore bytes' entries')
    (hp : bytes.slice Header.size (bytes.wordAt 8)
      <+: bytes'.slice Header.size (bytes'.wordAt 8)) : entries' = entries := by
  obtain ⟨content, hcontent, hentries⟩ := h.index
  obtain ⟨content', hcontent', hentries'⟩ := h'.index
  have hfront : content <+: content' := Zstd.prefix_of_decode hp
    (decompress_eq_ok_iff.mp hcontent).1 (decompress_eq_ok_iff.mp hcontent').1
  -- both lists stand at the front of the longer content, and reading it gives one of them only
  have hread : Index.decode _ (bytes'.wordAt 16) = .ok ⟨entries⟩ :=
    (Index.decode_eq_ok_iff (bytes'.wordAt_lt 16)).mpr
      ⟨content', hcontent', hentries.trans hfront⟩
  have hread' : Index.decode _ (bytes'.wordAt 16) = .ok ⟨entries'⟩ :=
    (Index.decode_eq_ok_iff (bytes'.wordAt_lt 16)).mpr ⟨content', hcontent', hentries'⟩
  exact (Index.mk.inj (Except.ok.inj (hread.symm.trans hread'))).symm

/-- **Two stores that are the same behind their headers are the same.** -/
theorem eq_of_rest (h : IsStore bytes entries) (h' : IsStore bytes' entries')
    (hlength : bytes'.length = bytes.length)
    (hrest : bytes'.drop Header.size = bytes.drop Header.size) : bytes' = bytes := by
  have hentries : entries' = entries := by
    rcases Nat.le_total (bytes.wordAt 8) (bytes'.wordAt 8) with hle | hle
    · exact h.entries_eq h' (slice_front hrest hle)
    · exact (h'.entries_eq h (slice_front hrest.symm hle)).symm
  -- the entries tell where the index ends
  have hsize : bytes'.wordAt 8 = bytes.wordAt 8 := by
    have htotal := h.total
    have htotal' := h'.total
    rw [hentries] at htotal'
    omega
  have hindex : bytes'.slice Header.size (bytes'.wordAt 8)
      = bytes.slice Header.size (bytes.wordAt 8) := by
    rw [Bytes.slice, Bytes.slice, hrest, hsize]
  -- and the index tells its length
  have hcount : bytes'.wordAt 16 = bytes.wordAt 16 := by
    obtain ⟨content, hcontent, -⟩ := h.index
    obtain ⟨content', hcontent', -⟩ := h'.index
    rw [hindex] at hcontent'
    obtain ⟨hdecode, hlen⟩ := decompress_eq_ok_iff.mp hcontent
    obtain ⟨hdecode', hlen'⟩ := decompress_eq_ok_iff.mp hcontent'
    rw [← hlen, ← hlen', Zstd.decode_unique hdecode hdecode']
  rw [← List.take_append_drop Header.size bytes', ← List.take_append_drop Header.size bytes,
    Bytes.take_header h'.header h'.fingerprint, Bytes.take_header h.header h.fingerprint, hsize,
    hcount, hrest]

end IsStore

namespace Session

/-- **The header is determined by the rest of the file.**  A file is opened, and there is another
one of the same length that is the same behind the first 24 bytes but not in them.  Then opening
the other file fails, because it is no store. -/
theorem open_of_other_header {fs fs' : FileSystem} {path path' : String} {bytes bytes' : Bytes}
    {mode : Mode} {config : SessionConfig} {session : Session}
    (hload : fs.load path = .ok bytes) (hmode : mode ≠ .create)
    (hopen : (Session.open fs path mode config).value = .ok session)
    (hload' : fs'.load path' = .ok bytes') (hlength : bytes'.length = bytes.length)
    (hrest : bytes'.drop Header.size = bytes.drop Header.size)
    (hhead : bytes'.take Header.size ≠ bytes.take Header.size) :
    ∃ e, fs'.Rejects path' e := by
  obtain ⟨contents, hparse, -⟩ := parse_of_open hload hmode hopen
  cases hparse' : Contents.parse bytes' with
  | error e => exact ⟨e, FileSystem.rejects_of_parse hload' hparse'⟩
  | ok contents' =>
    have heq := (IsStore.of_parse hparse).eq_of_rest (.of_parse hparse') hlength hrest
    exact absurd (congrArg (List.take Header.size) heq) hhead

/-- A store of one record. -/
def intactStore : Bytes :=
  Contents.front ⟨[⟨[1], UInt64.ofNat (compress defaultLevel [2]).size, 1, none⟩]⟩ defaultLevel
    ++ (compress defaultLevel [2]).bytes

/-- The same behind another header, whose index ends where the record does and decompresses to as
many bytes more as the record holds. -/
def swallowedStore : Bytes :=
  (Header.ofIndex (UInt64.ofNat (intactStore.length - Header.size))
    (UInt64.ofNat (intactStore.wordAt 16 + 1))).encode ++ intactStore.drop Header.size

/-- A file system with a store, and with three files that were made from it. -/
def spoiltFiles : FileSystem where
  nodes := #[.directory ⟨[("a", 1), ("b", 2), ("c", 3), ("d", 4)], FileSystem.root, 0o755, 0⟩,
    .file ⟨intactStore, 0o644, 0⟩, .file ⟨swallowedStore, 0o644, 0⟩,
    .file ⟨intactStore.take (intactStore.length - 1), 0o644, 0⟩,
    .file ⟨intactStore ++ [0], 0o644, 0⟩]
  clock := 4

/-- The session on the store. -/
def intactSession : Session :=
  match (Session.open spoiltFiles "a" .write .default).value with
  | .ok session => session
  | .error _ => ofNothing "a" .default .absent

/-- The index behind the other header decompresses, and still the file is rejected. -/
theorem open_swallowed :
    (∃ entries, Index.decode (swallowedStore.slice Header.size (swallowedStore.wordAt 8))
        (swallowedStore.wordAt 16) = .ok entries) ∧
      swallowedStore.drop Header.size = intactStore.drop Header.size ∧
      ∃ e, spoiltFiles.Rejects "b" e := by
  have hrest : swallowedStore.drop Header.size = intactStore.drop Header.size := by decide +kernel
  have hopen : (Session.open spoiltFiles "a" .write .default).value = .ok intactSession := by
    decide +kernel
  refine ⟨?_, hrest, open_of_other_header rfl (by decide) hopen rfl (by decide +kernel) hrest
    (by decide +kernel)⟩
  exact ⟨⟨[⟨[1], UInt64.ofNat (compress defaultLevel [2]).size, 1, none⟩]⟩, by decide +kernel⟩

end Session

/-! ## 3. The size goes with the front -/

namespace Contents

variable {bytes bytes' : Bytes} {contents : Contents}

/-- **Reading a store looks at its front, and at its size.**  A file with the same front is the
same store if it has the same size, and otherwise its index does not account for its size. -/
theorem parse_of_front (h : parse bytes = .ok contents)
    (hlength : contents.header.dataOffset ≤ bytes'.length)
    (hfront : bytes'.take contents.header.dataOffset = bytes.take contents.header.dataOffset) :
    parse bytes' = if bytes'.length = bytes.length then .ok contents
      else .error (.format .sizeMismatch) := by
  obtain ⟨hheader, -, hindex, hlookup, hsize⟩ := parse_eq_ok_iff.mp h
  have hdata : contents.header.dataOffset = Header.size + contents.header.indexSize.toNat := rfl
  have hhead : bytes'.take Header.size = bytes.take Header.size := by
    have htake := congrArg (List.take Header.size) hfront
    rwa [List.take_take, List.take_take, Nat.min_eq_left (by omega)] at htake
  have hbody : (bytes'.drop Header.size).take contents.header.indexSize.toNat
      = (bytes.drop Header.size).take contents.header.indexSize.toNat := by
    have hdrop := congrArg (List.drop Header.size) hfront
    rwa [hdata, List.drop_take, List.drop_take, Nat.add_sub_cancel_left] at hdrop
  by_cases heq : bytes'.length = bytes.length
  · rw [if_pos heq]
    exact parse_eq_ok_iff.mpr ⟨hhead ▸ hheader, by omega, hbody ▸ hindex, hlookup,
      hsize.trans heq.symm⟩
  · have hother : contents.lookup.endOffset ≠ bytes'.length :=
      fun hend => heq (hend.symm.trans hsize)
    have hinside : contents.header.indexSize.toNat ≤ bytes'.length - Header.size := by omega
    simp only [parse, hhead, hheader, hbody, hindex, hlookup, Fallible.guard, if_pos hinside,
      if_neg hother, if_neg heq, bind, Except.bind]

/-- A file without a header that can be read. -/
theorem parse_of_decode {e : Error} (h : Header.decode bytes = .error e) :
    parse bytes = .error e := by
  simp only [parse, Header.decode_take, h, bind, Except.bind]

/-- A file that has the header of a store, but is too short for its index. -/
theorem parse_of_cut_index (h : parse bytes = .ok contents)
    (hhead : bytes'.take Header.size = bytes.take Header.size)
    (hlength : bytes'.length < contents.header.dataOffset) (hlong : Header.size ≤ bytes'.length) :
    parse bytes' = .error (.format .truncatedIndex) := by
  have hheader := (parse_eq_ok_iff.mp h).header
  simp only [Header.dataOffset] at hlength
  simp only [parse, hhead, hheader, bind, Except.bind]
  rw [Fallible.guard, if_neg (by omega)]

/-- The front of a store is a part of it. -/
theorem dataOffset_le (h : parse bytes = .ok contents) :
    contents.header.dataOffset ≤ bytes.length := by
  have hend := (parse_eq_ok h).2.2
  omega

/-- What is wrong with a part of a store of this length. -/
def cutFault (header : Header) (length : Nat) : FormatError :=
  if length < Header.size then .truncatedHeader
  else if length < header.dataOffset then .truncatedIndex
  else .sizeMismatch

/-- **A part of a store does not parse**, wherever it is cut off. -/
theorem parse_of_cut (h : parse bytes = .ok contents) {cut : Bytes} (hp : cut <+: bytes)
    (hne : cut ≠ bytes) :
    parse cut = .error (.format (cutFault contents.header cut.length)) := by
  have htake : cut = bytes.take cut.length := List.prefix_iff_eq_take.mp hp
  have hfront : ∀ n ≤ cut.length, cut.take n = bytes.take n := by
    intro n hn
    rw [htake, List.take_take, Nat.min_eq_left hn]
  have hlength : cut.length ≠ bytes.length := fun heq => hne (hp.eq_of_length heq)
  unfold cutFault
  split
  · rename_i hshort
    exact parse_of_decode (if_pos hshort)
  split
  · rename_i hlong hcut
    exact parse_of_cut_index h (hfront _ (by omega)) hcut (by omega)
  · rename_i hlong
    rw [parse_of_front h (by omega) (hfront _ (by omega)), if_neg hlength]

/-- **A store with something behind it does not parse.** -/
theorem parse_of_junk (h : parse bytes = .ok contents) {junk : Bytes} (hne : junk ≠ []) :
    parse (bytes ++ junk) = .error (.format .sizeMismatch) := by
  have hle := dataOffset_le h
  have hpos : 0 < junk.length := List.length_pos_iff.mpr hne
  rw [parse_of_front h (by rw [List.length_append]; omega) (List.take_append_of_le_length hle),
    if_neg (by rw [List.length_append]; omega)]

end Contents

namespace Session

/-- **Every truncation and every extension is detected.**  A file is opened, whose index ends at
the `dataOffset` of its header.  Opening a file that is a part of it, cut off somewhere, fails
because it is no store: its header is truncated, or its index is, or its index does not account
for its size, going by where it is cut off.  Opening a file that continues it fails for the last of
these reasons.  So no file that is accepted is a proper front of another one. -/
theorem open_of_other_length {fs : FileSystem} {path : String} {bytes : Bytes} {mode : Mode}
    {config : SessionConfig} {session : Session} (hload : fs.load path = .ok bytes)
    (hmode : mode ≠ .create)
    (hopen : (Session.open fs path mode config).value = .ok session) :
    ∃ header, session.header? = some header ∧ ∀ fs' path',
      (∀ cut, fs'.load path' = .ok cut → cut <+: bytes → cut ≠ bytes →
        ∃ e, fs'.Rejects path' e ∧ e.message = "format error: " ++
          if cut.length < Header.size then "truncated header"
          else if cut.length < header.dataOffset then "truncated index"
          else "index does not account for file size") ∧
      (∀ junk, fs'.load path' = .ok (bytes ++ junk) → junk ≠ [] →
        ∃ e, fs'.Rejects path' e ∧
          e.message = "format error: index does not account for file size") ∧
      ∀ other mode' config' session', fs'.load path' = .ok other → mode' ≠ .create →
        (Session.open fs' path' mode' config').value = .ok session' → bytes <+: other →
        other = bytes := by
  obtain ⟨contents, hparse, hheader⟩ := parse_of_open hload hmode hopen
  refine ⟨contents.header, hheader, fun fs' path' => ⟨?_, ?_, ?_⟩⟩
  · intro cut hcut hp hne
    refine ⟨_, FileSystem.rejects_of_parse hcut (Contents.parse_of_cut hparse hp hne), ?_⟩
    unfold Contents.cutFault
    split
    · rfl
    · split <;> rfl
  · intro junk hjunk hne
    exact ⟨_, FileSystem.rejects_of_parse hjunk (Contents.parse_of_junk hparse hne), rfl⟩
  · rintro other mode' config' session' hother hmode' hopen' ⟨junk, rfl⟩
    by_cases hne : junk = []
    · rw [hne, List.append_nil]
    · obtain ⟨contents', hparse', -⟩ := parse_of_open hother hmode' hopen'
      rw [Contents.parse_of_junk hparse hne] at hparse'
      exact absurd hparse' (by simp)

/-- The store without its last byte, and the store with one more. -/
theorem open_cut_and_extended :
    (∃ e, spoiltFiles.Rejects "c" e ∧
        e.message = "format error: index does not account for file size") ∧
      ∃ e, spoiltFiles.Rejects "d" e ∧
        e.message = "format error: index does not account for file size" := by
  have hopen : (Session.open spoiltFiles "a" .write .default).value = .ok intactSession := by
    decide +kernel
  obtain ⟨header, hheader, hother⟩ := open_of_other_length rfl (by decide) hopen
  have hknown : intactSession.header? = some (Header.ofIndex (UInt64.ofNat (intactStore.wordAt 8))
      (UInt64.ofNat (intactStore.wordAt 16))) := by decide +kernel
  obtain rfl := Option.some.inj (hknown.symm.trans hheader)
  refine ⟨?_, (hother spoiltFiles "d").2.1 [0] rfl (by decide)⟩
  have hcut := (hother spoiltFiles "c").1 _ rfl (List.take_prefix _ _) (by decide +kernel)
  rwa [if_neg (by decide +kernel), if_neg (by decide +kernel)] at hcut

end Session
end ConstStore
