/-
# Which file holds a record

A session does not write down which file holds a record: it compares the place of the record with
the size of the base file.  That recovers the owner for every record that was added, and for every
loaded record with a byte of its own in or behind it.  A loaded record without bytes and with none
behind it stands where the base file ends, and so it is taken for a pending one (`Trailing`); a
file may well hold such records, because opening checks only that the sizes sum up.

* `Holds.owner_of_locate?`: the file and the offset that looking up a key gives.
* `Holds.readable_fetch`: what fetching there gives, in an unaltered base file.
* `owner_of_find`: both, for every session that calls lead to.
-/
import ConstStore.Proofs.Session.Records

namespace ConstStore

/-! ## 1. Owners -/

/-- The file that owns the record with an ordinal, and the offset of the record in that file. -/
def owner (dataStart : Nat) (loaded : List Entry) (added : List Record) (ordinal : Nat) :
    Source × Nat :=
  if ordinal < loaded.length then
    (.base, dataStart + extent ((loaded.take ordinal).map Entry.span))
  else (.pending, (Record.frames (added.take (ordinal - loaded.length))).length)

/-- More records behind the others do not move the ones before. -/
theorem owner_append {loaded : List Entry} {added : List Record} {ordinal : Nat}
    (h : ordinal ≤ loaded.length + added.length) (dataStart : Nat) (more : List Record) :
    owner dataStart loaded (added ++ more) ordinal = owner dataStart loaded added ordinal := by
  rw [owner, owner, List.take_append_of_le_length (by omega)]

/-- The record was loaded and has no bytes, and none of the loaded ones behind it has any. -/
def Trailing (loaded : List Entry) (ordinal : Nat) : Prop :=
  ordinal < loaded.length ∧ ∀ e ∈ loaded.drop ordinal, e.size = 0

theorem Trailing.size_eq_zero {loaded : List Entry} {ordinal : Nat} {e : Entry}
    (h : Trailing loaded ordinal) (he : loaded[ordinal]? = some e) : e.size = 0 := by
  refine h.2 e (List.mem_of_getElem? (i := 0) ?_)
  rw [List.getElem?_drop]
  exact he

/-- Records take no bytes when none of them does. -/
theorem extent_span_eq_zero {entries : List Entry} :
    extent (entries.map Entry.span) = 0 ↔ ∀ e ∈ entries, e.size = 0 := by
  induction entries with
  | nil => simp
  | cons e entries ih =>
    have hsize : e.span.size = 0 ↔ e.size = 0 := by
      rw [Entry.span, ← UInt64.toNat_inj]
      rfl
    rw [List.map_cons, extent_cons, Nat.add_eq_zero_iff, hsize, ih, List.forall_mem_cons]

/-- A loaded record starts inside the base file unless it trails. -/
theorem extent_take_lt_iff {loaded : List Entry} {ordinal : Nat} (h : ordinal < loaded.length) :
    extent ((loaded.take ordinal).map Entry.span) < extent (loaded.map Entry.span) ↔
      ¬ Trailing loaded ordinal := by
  have hsum := extent_append ((loaded.take ordinal).map Entry.span)
    ((loaded.drop ordinal).map Entry.span)
  rw [← List.map_append, List.take_append_drop] at hsum
  have htrail : Trailing loaded ordinal ↔ extent ((loaded.drop ordinal).map Entry.span) = 0 := by
    rw [extent_span_eq_zero]
    exact ⟨And.right, fun hz => ⟨h, hz⟩⟩
  rw [htrail]
  omega

/-! ## 2. Looking up -/

namespace Session
namespace Holds

variable {session : Session} {loaded : List Entry} {added : List Record} {key : Bytes}
  {last : LastLookup}

/-- A loaded record stands where the loaded ones before it end. -/
theorem offset_of_loaded (h : session.Holds loaded added) {slot : Slot}
    (hslot : session.lookup.get? key = some slot) (hlt : slot.ordinal < loaded.length) :
    slot.offset = session.dataStart + extent ((loaded.take slot.ordinal).map Entry.span) := by
  obtain ⟨-, -, -, hoffset⟩ := h.get?_eq_some_iff.mp hslot
  rw [hoffset, List.take_append_of_le_length (by rw [List.length_map]; omega), List.map_take]

/-- An added record stands behind the base file, as far as in the buffer. -/
theorem offset_of_added (h : session.Holds loaded added) {slot : Slot}
    (hslot : session.lookup.get? key = some slot) (hle : loaded.length ≤ slot.ordinal) :
    slot.offset = session.baseSize
      + (Record.frames (added.take (slot.ordinal - loaded.length))).length := by
  obtain ⟨-, -, -, hoffset⟩ := h.get?_eq_some_iff.mp hslot
  rw [hoffset, List.take_append, List.take_of_length_le (by rw [List.length_map]; omega),
    List.length_map, extent_append, h.baseSize, Record.length_frames, List.map_take,
    Nat.add_assoc]

/-- **The place of a record lies in the base file** when it was loaded and does not trail. -/
theorem offset_lt_baseSize_iff (h : session.Holds loaded added) {slot : Slot}
    (hslot : session.lookup.get? key = some slot) :
    slot.offset < session.baseSize ↔
      slot.ordinal < loaded.length ∧ ¬ Trailing loaded slot.ordinal := by
  by_cases hlt : slot.ordinal < loaded.length
  · rw [h.offset_of_loaded hslot hlt, h.baseSize, Nat.add_lt_add_iff_left,
      extent_take_lt_iff hlt]
    exact (and_iff_right hlt).symm
  · rw [h.offset_of_added hslot (Nat.le_of_not_lt hlt)]
    exact ⟨fun hin => by omega, fun hin => absurd hin.1 hlt⟩

/-- A trailing record stands where the base file ends. -/
theorem offset_of_trailing (h : session.Holds loaded added) {slot : Slot}
    (hslot : session.lookup.get? key = some slot) (ht : Trailing loaded slot.ordinal) :
    slot.offset = session.baseSize := by
  have hout : ¬ slot.offset < session.baseSize := fun hin =>
    absurd ht ((h.offset_lt_baseSize_iff hslot).mp hin).2
  have hle := extent_take_le (loaded.map Entry.span) slot.ordinal
  rw [← List.map_take] at hle
  have hoffset := h.offset_of_loaded hslot ht.1
  have hbase := h.baseSize
  omega

/-- **Looking up a key gives the owner of its record**, unless the record trails. -/
theorem owner_of_locate? (h : session.Holds loaded added)
    (hl : session.locate? key = some last) :
    ∃ e, session.index.get? last.ordinal = some e ∧ e.key = key ∧
      (last.key = key ∧ last.size = e.size.toNat ∧ last.length = e.length.toNat) ∧
      (¬ Trailing loaded last.ordinal →
        (last.source, last.offset) = owner session.dataStart loaded added last.ordinal) ∧
      (Trailing loaded last.ordinal → (last.source, last.offset) = (.pending, 0)) := by
  have hslot : ∃ slot, session.lookup.get? key = some slot := by
    have hfound := h.find_fst key
    rw [find, hl] at hfound
    exact Option.isSome_iff_exists.mp hfound.symm
  obtain ⟨slot, hslot⟩ := hslot
  obtain ⟨e, he, hk, hloc⟩ := h.locate?_eq hslot
  have hiff := h.offset_lt_baseSize_iff hslot
  rw [hl, Option.some.injEq] at hloc
  by_cases hin : slot.offset < session.baseSize
  · obtain ⟨hlt, htrail⟩ := hiff.mp hin
    have hoffset := h.offset_of_loaded hslot hlt
    rw [if_pos hin] at hloc
    subst hloc
    refine ⟨e, he, hk, ⟨rfl, rfl, rfl⟩, fun _ => ?_, fun ht => absurd ht htrail⟩
    rw [owner, if_pos hlt, hoffset]
  · rw [if_neg hin] at hloc
    subst hloc
    refine ⟨e, he, hk, ⟨rfl, rfl, rfl⟩, fun htrail => ?_, fun ht => ?_⟩
    · have hlt : ¬ slot.ordinal < loaded.length := fun hlt => hin (hiff.mpr ⟨hlt, htrail⟩)
      have hoffset := h.offset_of_added hslot (Nat.le_of_not_lt hlt)
      rw [owner, if_neg hlt, hoffset, Nat.add_sub_cancel_left]
    · have hoffset := h.offset_of_trailing hslot ht
      rw [hoffset, Nat.sub_self]

/-- **An entry is found under its key**, at its ordinal. -/
theorem exists_locate? (h : session.Holds loaded added) {n : Nat} {e : Entry}
    (he : session.index.get? n = some e) :
    ∃ last, session.locate? e.key = some last ∧ last.ordinal = n := by
  have hslot : session.lookup.get? e.key = some ⟨n, session.dataStart
      + extent ((loaded.map Entry.span ++ added.map Record.span).take n)⟩ :=
    h.get?_eq_some_iff.mpr ⟨e, he, rfl, rfl⟩
  obtain ⟨_, -, -, hl⟩ := h.locate?_eq hslot
  refine ⟨_, hl, ?_⟩
  split <;> rfl

end Holds

/-! ## 3. Fetching -/

/-- An answer to fetching that is a value, or tells that the bytes of the record are no value. -/
def Readable : Except Error Bytes → Prop
  | .ok _ | .error (.decode _) | .error (.recordLength _ _) => True
  | _ => False

theorem readable_decompress (bytes : Bytes) (length : Nat) :
    Readable (decompress bytes length) := by
  unfold decompress
  split
  · trivial
  · split <;> trivial

/-- A record inside the bounds of an unaltered base file is decompressed. -/
theorem readRecord_base {base : BaseFile} {fs : FileSystem} {content : Bytes}
    (hcursor : base.cursor.Coherent) (hcontent : fs.contentOf base.node = .ok content)
    (hsize : content.length = base.size) {offset size : Nat}
    (hstart : base.header.dataOffset ≤ offset) (hend : offset + size ≤ base.size)
    (length : Nat) :
    (base.readRecord fs offset size length).1
      = decompress (content.slice offset size) length := by
  rw [BaseFile.readRecord, if_neg (by omega)]
  simp only [hcontent, Cursor.readAt_of_le hcursor (hsize ▸ hend)]

/-- A record inside the bounds of a buffer is decompressed. -/
theorem readRecord_pending {buffer : PendingBuffer} (hcursor : buffer.cursor.Coherent)
    {offset size : Nat} (hend : offset + size ≤ buffer.size) (length : Nat) :
    (buffer.readRecord offset size length).1
      = decompress (buffer.content.slice offset size) length := by
  rw [PendingBuffer.readRecord, if_neg (by omega)]
  simp only [Cursor.readAt_of_le hcursor hend]

namespace Holds

variable {session : Session} {loaded : List Entry} {added : List Record} {key : Bytes}
  {last : LastLookup} {files : FileSystem}

/-- A loaded record lies inside the base file. -/
theorem fetch_loaded (h : session.Holds loaded added) {base : BaseFile}
    (hb : session.base = some base) {content : Bytes}
    (hcontent : files.contentOf base.node = .ok content) (hlength : content.length = base.size)
    (hlast : session.last = some last) (hlt : last.ordinal < loaded.length)
    (howner : (last.source, last.offset) = owner session.dataStart loaded added last.ordinal)
    (hsize : last.size = loaded[last.ordinal].size.toNat) :
    (session.fetch files).1 = decompress (content.slice last.offset last.size) last.length := by
  rw [owner, if_pos hlt, Prod.mk.injEq] at howner
  have hspan : (loaded.map Entry.span)[last.ordinal]? = some loaded[last.ordinal].span := by
    rw [List.getElem?_map, List.getElem?_eq_getElem hlt]
    rfl
  have hend := extent_take_add_size_le hspan
  rw [← List.map_take] at hend
  have hs : last.size = loaded[last.ordinal].span.size := hsize
  have hd : session.dataStart = base.header.dataOffset := by simp only [dataStart, hb]
  have htotal : base.size = session.dataStart + extent (loaded.map Entry.span) := by
    rw [← h.baseSize]
    simp only [Session.baseSize, hb]
  simp only [fetch, hlast, howner.1, hb]
  exact readRecord_base (h.base base hb) hcontent hlength
    (by rw [howner.2, hd]; exact Nat.le_add_right _ _) (by rw [howner.2]; omega) _

/-- An added record lies inside the buffer. -/
theorem fetch_added (h : session.Holds loaded added) (hlast : session.last = some last)
    {n : Nat} {r : Record} (hr : added[n]? = some r)
    (howner : (last.source, last.offset) = (.pending, (Record.frames (added.take n)).length))
    (hsize : last.size ≤ r.frame.length) (files : FileSystem) :
    (session.fetch files).1
      = decompress ((Record.frames added).slice last.offset last.size) last.length := by
  rw [Prod.mk.injEq] at howner
  cases hp : session.pending with
  | none =>
    rw [h.noBuffer hp] at hr
    exact absurd hr (by simp)
  | some buffer =>
    have hb := h.buffer buffer hp
    have hspan : (added.map Record.span)[n]? = some r.span := by
      rw [List.getElem?_map, hr]
      rfl
    have hend := extent_take_add_size_le hspan
    have hle : last.size ≤ r.span.size := hsize
    rw [← List.map_take, ← Record.length_frames, ← Record.length_frames, ← hb.content] at hend
    simp only [fetch, hlast, howner.1, hp]
    rw [readRecord_pending hb.cursor (by rw [howner.2, PendingBuffer.size]; omega), hb.content]

/-- A record taken for a pending one is read at the start of the buffer, where there is one, and
has no bytes there. -/
theorem fetch_trailing (h : session.Holds loaded added) (files : FileSystem)
    (hlast : session.last = some last)
    (howner : (last.source, last.offset) = (.pending, 0)) (hsize : last.size = 0) :
    (session.fetch files).1 = if session.pending = none then .error (.format .outsidePending)
      else decompress [] last.length := by
  rw [Prod.mk.injEq] at howner
  cases hp : session.pending with
  | none => simp only [fetch, hlast, howner.1, hp, if_true]
  | some buffer =>
    have hread := readRecord_pending (h.buffer buffer hp).cursor
      (by rw [howner.2, hsize]; omega : last.offset + last.size ≤ buffer.size) last.length
    rw [hsize, Bytes.slice, List.take_zero] at hread
    rw [if_neg (by simp)]
    simp only [fetch, hlast, howner.1, hp, hsize]
    exact hread

/-- **Fetching a record that has just been found** fails on its bounds only when it trails and
there is no buffer. -/
theorem readable_fetch (h : session.Holds loaded added)
    (hbase : ∀ base, session.base = some base →
      ∃ content, files.contentOf base.node = .ok content ∧ content.length = base.size)
    (hl : session.locate? key = some last) :
    (Trailing loaded last.ordinal ∧ session.pending = none →
        ((session.find key).2.fetch files).1 = .error (.format .outsidePending)) ∧
      (¬ (Trailing loaded last.ordinal ∧ session.pending = none) →
        Readable ((session.find key).2.fetch files).1) := by
  obtain ⟨e, he, -, ⟨-, hsize, -⟩, howner, htrailing⟩ := h.owner_of_locate? hl
  have hf := holds_find h key
  have hlast : (session.find key).2.last = some last := hl
  rw [Index.get?, h.entries] at he
  by_cases ht : Trailing loaded last.ordinal
  · rw [List.getElem?_append_left ht.1] at he
    rw [ht.size_eq_zero he] at hsize
    have hfetch := hf.fetch_trailing files hlast (htrailing ht) hsize
    refine ⟨fun hn => hfetch.trans (if_pos hn.2), fun hn => ?_⟩
    have hpending : (session.find key).2.pending ≠ none := fun hp => hn ⟨ht, hp⟩
    rw [hfetch, if_neg hpending]
    exact readable_decompress _ _
  · refine ⟨fun hn => absurd hn.1 ht, fun _ => ?_⟩
    by_cases hlt : last.ordinal < loaded.length
    · rw [List.getElem?_append_left hlt, List.getElem?_eq_getElem hlt, Option.some.injEq] at he
      cases hb : session.base with
      | none =>
        rw [h.nothing hb] at hlt
        exact absurd hlt (Nat.not_lt_zero _)
      | some base =>
        obtain ⟨content, hcontent, hlength⟩ := hbase base hb
        rw [hf.fetch_loaded hb hcontent hlength hlast hlt (howner ht) (he ▸ hsize)]
        exact readable_decompress _ _
    · have hle := Nat.le_of_not_lt hlt
      rw [List.getElem?_append_right hle, List.getElem?_map] at he
      obtain ⟨r, hr, rfl⟩ := Option.map_eq_some_iff.mp he
      have howner := howner ht
      rw [owner, if_neg hlt] at howner
      -- where the entry does not tell the size of the record, it tells less
      rw [hf.fetch_added hlast hr howner (hsize ▸ Nat.mod_le _ _)]
      exact readable_decompress _ _

end Holds

/-! ## 4. Every session -/

/-- **Looking up a key gives the owner of its record, and fetching it then reads inside that
file**, except for trailing records: those are taken for pending ones, and fetching one fails
on the bounds of a buffer that is not there. -/
theorem owner_of_find {fs : FileSystem} {path : String} {mode : Mode} {config : SessionConfig}
    {start session : Session} (hopen : (Session.open fs path mode config).value = .ok start)
    (hreach : Reachable start session) {key : Bytes} (hfind : (session.find key).1 = true) :
    ∃ added last, session.Holds start.index.entries added ∧
      (session.find key).2.last = some last ∧
      (∃ e, session.index.get? last.ordinal = some e ∧ e.key = key) ∧
      (¬ Trailing start.index.entries last.ordinal → (last.source, last.offset)
        = owner session.dataStart start.index.entries added last.ordinal) ∧
      (Trailing start.index.entries last.ordinal →
        (last.source, last.offset) = (.pending, 0)) ∧
      ∀ files : FileSystem,
        (∀ base, start.base = some base →
          files.contentOf base.node = fs.contentOf base.node) →
        (Trailing start.index.entries last.ordinal ∧ session.pending = none →
          ((session.find key).2.fetch files).1 = .error (.format .outsidePending)) ∧
        (¬ (Trailing start.index.entries last.ordinal ∧ session.pending = none) →
          Readable ((session.find key).2.fetch files).1) := by
  obtain ⟨added, h⟩ := hreach.holds (holds_open hopen)
  obtain ⟨last, hl⟩ := Option.isSome_iff_exists.mp hfind
  obtain ⟨e, he, hk, -, howner, htrailing⟩ := h.owner_of_locate? hl
  refine ⟨added, last, h, hl, ⟨e, he, hk⟩, howner, htrailing, fun files hsame => ?_⟩
  refine h.readable_fetch (fun base hb => ?_) hl
  obtain ⟨old, hold, hsetup⟩ := hreach.sameSetup.base_eq_some hb
  obtain ⟨content, hcontent, hlength⟩ := base_of_open hopen hold
  have hnode : base.node = old.node := congrArg (·.1) hsetup
  have hsize : base.size = old.size := congrArg (·.2.2.size) hsetup
  exact ⟨content, by rw [hnode, hsame old hold, hcontent], hlength.trans hsize.symm⟩

/-- A file system with a store that has one record, which has no bytes. -/
def bareFiles : FileSystem where
  nodes := #[.directory ⟨[("a", 1)], FileSystem.root, 0o755, 0⟩,
    .file ⟨Contents.front ⟨[⟨[0x6b], 0, 0, none⟩]⟩ defaultLevel, 0o644, 0⟩]
  clock := 1

/-- A session on that store. -/
def bareSession : Session :=
  match (Session.open bareFiles "a" .read .default).value with
  | .ok session => session
  | .error _ => ofNothing "a" .default .absent

/-- The record is found, and fetching it fails. -/
theorem fetch_bare :
    (bareSession.find [0x6b]).1 = true ∧
      ((bareSession.find [0x6b]).2.fetch bareFiles).1 = .error (.format .outsidePending) := by
  have hopen : (Session.open bareFiles "a" .read .default).value = .ok bareSession := by
    decide +kernel
  have hfind : (bareSession.find [0x6b]).1 = true := by decide +kernel
  obtain ⟨added, last, -, hlast, -, -, -, hfetch⟩ := owner_of_find hopen .start hfind
  have hordinal : last.ordinal = 0 := by
    have h : (bareSession.find [0x6b]).2.last.map (·.ordinal) = some 0 := by decide +kernel
    rw [hlast] at h
    exact Option.some.inj h
  have htrailing : Trailing bareSession.index.entries last.ordinal := by
    rw [hordinal]
    exact ⟨by decide +kernel, by decide +kernel⟩
  have hpending : bareSession.pending = none := by decide +kernel
  exact ⟨hfind, (hfetch bareFiles fun _ _ => rfl).1 ⟨htrailing, hpending⟩⟩

end Session
end ConstStore
