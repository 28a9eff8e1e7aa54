/-
# What a session holds

A session holds the entries that were loaded with its base file and the records that it has added
since.  Index, lookup, base size and pending buffer are updated one by one; `Session.Holds` says
what they have to be for a given list of loaded entries and a given list of added records, and so
it is the invariant that everything else about sessions is read off from.

* `holds_open`: a session that has just been opened holds what was loaded.
* `holds_call`: a call adds the one record that its answer tells of, or none.
* `Reachable.holds`: so every session that calls lead to holds some records.
-/
import ConstStore.Proofs.Contents
import ConstStore.Proofs.Session.Call
import ConstStore.Proofs.Session.Open

namespace ConstStore

/-! ## 1. Records -/

/-- What is added to a store: a value under a key, perhaps with metadata. -/
structure Item where
  key : Bytes
  value : Bytes
  metadata : Option Bytes
  deriving DecidableEq

/-- An item with the level at which its value was compressed. -/
structure Record extends Item where
  level : Zstd.Level
  deriving DecidableEq

namespace Record

/-- The bytes of a record. -/
def frame (r : Record) : Bytes := (compress r.level r.value).bytes

/-- The entry that a session writes for a record. -/
def entry (r : Record) : Entry :=
  ⟨r.key, UInt64.ofNat r.frame.length, UInt64.ofNat r.value.length, r.metadata⟩

/-- What the place of a record depends on. -/
def span (r : Record) : Span := ⟨r.key, r.frame.length⟩

/-- The bytes of records that stand behind each other. -/
def frames (records : List Record) : Bytes := records.flatMap frame

@[simp] theorem frames_nil : frames [] = [] := rfl

@[simp] theorem frames_append (front back : List Record) :
    frames (front ++ back) = frames front ++ frames back := List.flatMap_append

@[simp] theorem frames_singleton (r : Record) : frames [r] = r.frame := List.flatMap_singleton ..

theorem length_frames (records : List Record) :
    (frames records).length = extent (records.map span) := by
  induction records with
  | nil => rfl
  | cons r records ih =>
    rw [frames, List.flatMap_cons, List.length_append, List.map_cons, extent_cons]
    exact congrArg (r.frame.length + ·) ih

/-- An entry tells the size of its record, unless it is beyond 2^64. -/
theorem span_entry {r : Record} (h : r.frame.length < UInt64.size) : r.entry.span = r.span := by
  simp only [Entry.span, entry, span, UInt64.toNat_ofNat_of_lt' h]

theorem map_span_entry {records : List Record} (h : (frames records).length < UInt64.size) :
    (records.map entry).map Entry.span = records.map span := by
  induction records with
  | nil => rfl
  | cons r records ih =>
    rw [frames, List.flatMap_cons, List.length_append] at h
    rw [List.map_cons, List.map_cons, List.map_cons, span_entry (by omega),
      ih (by rw [frames]; omega)]

theorem map_key_span (records : List Record) :
    (records.map span).map Span.key = records.map (·.key) := by
  rw [List.map_map]
  rfl

theorem map_key_entry (records : List Record) :
    (records.map entry).map Entry.key = records.map (·.key) := by
  rw [List.map_map]
  rfl

end Record

/-! ## 2. Pending buffers -/

/-- The buffer holds these records and nothing else. -/
structure PendingBuffer.Holds (buffer : PendingBuffer) (added : List Record) : Prop where
  content : buffer.content = Record.frames added
  records : buffer.records = added.length
  cursor : buffer.cursor.Coherent

namespace PendingBuffer

theorem holds_empty : PendingBuffer.empty.Holds [] := ⟨rfl, rfl, Cursor.coherent_new 0⟩

variable {buffer : PendingBuffer} {added : List Record}

/-- Appending tells where the new record stands. -/
theorem append_fst (h : buffer.Holds added) (r : Record) :
    (buffer.append r.level r.value).1
      = ⟨extent (added.map Record.span), r.frame.length, r.value.length⟩ := by
  rw [← Record.length_frames, ← h.content]
  rfl

theorem holds_append (h : buffer.Holds added) (r : Record) :
    (buffer.append r.level r.value).2.Holds (added ++ [r]) where
  content := by
    rw [Record.frames_append, Record.frames_singleton, ← h.content]
    exact Cursor.writeAt_fst h.cursor _ _
  records := by rw [List.length_append, ← h.records]; rfl
  cursor := Cursor.coherent_writeAt h.cursor buffer.content r.frame buffer.size

theorem holds_readRecord (h : buffer.Holds added) (offset size length : Nat) :
    (buffer.readRecord offset size length).2.Holds added := by
  unfold readRecord
  split
  · exact h
  · exact ⟨h.content, h.records, Cursor.coherent_readAt h.cursor buffer.content offset size⟩

end PendingBuffer

/-! ## 3. Sessions -/

namespace Session

/-- Where the records of the base file start; without one they start at 0. -/
def dataStart (session : Session) : Nat :=
  match session.base with
  | some base => base.header.dataOffset
  | none => 0

/-- The number of bytes in the pending buffer. -/
def pendingBytes (session : Session) : Nat :=
  match session.pending with
  | some buffer => buffer.size
  | none => 0

/-- The session has loaded these entries and added these records. -/
structure Holds (session : Session) (loaded : List Entry) (added : List Record) : Prop where
  entries : session.index.entries = loaded ++ added.map Record.entry
  lookup : session.lookup
    = .layout session.dataStart (loaded.map Entry.span ++ added.map Record.span)
  distinct : (loaded.map Entry.key ++ added.map (·.key)).Nodup
  baseSize : session.baseSize = session.dataStart + extent (loaded.map Entry.span)
  base : ∀ base, session.base = some base → base.cursor.Coherent
  noBase : session.base = none ↔ session.mode = .create
  nothing : session.base = none → loaded = []
  buffer : ∀ buffer, session.pending = some buffer → buffer.Holds added
  noBuffer : session.pending = none → added = []
  readOnly : session.mode = .read → session.pending = none
  level : ∀ r ∈ added, r.level = session.config.level

namespace Holds

variable {session : Session} {loaded : List Entry} {added : List Record}

theorem pendingBytes_eq (h : session.Holds loaded added) :
    session.pendingBytes = extent (added.map Record.span) := by
  rw [pendingBytes]
  split
  · rename_i buffer hb
    rw [PendingBuffer.size, (h.buffer buffer hb).content, Record.length_frames]
  · rename_i hb
    rw [h.noBuffer hb]
    rfl

/-- The last record ends where the buffer does, which continues the base file. -/
theorem endOffset_eq (h : session.Holds loaded added) :
    session.lookup.endOffset = session.baseSize + extent (added.map Record.span) := by
  rw [h.lookup, Lookup.layout_endOffset, extent_append, h.baseSize, Nat.add_assoc]

theorem pendingRecords_eq (h : session.Holds loaded added) :
    session.pendingRecords = added.length := by
  rw [pendingRecords]
  split
  · rename_i buffer hb
    exact (h.buffer buffer hb).records
  · rename_i hb
    rw [h.noBuffer hb]
    rfl

theorem contains_iff (h : session.Holds loaded added) {key : Bytes} :
    session.contains key = true ↔ key ∈ loaded.map Entry.key ++ added.map (·.key) := by
  rw [contains, h.lookup, Lookup.contains_layout, List.map_append, map_key_span,
    Record.map_key_span]

/-- The spans of all records have the keys of all entries. -/
theorem map_key_spans (h : session.Holds loaded added) :
    (loaded.map Entry.span ++ added.map Record.span).map Span.key
      = session.index.entries.map Entry.key := by
  rw [h.entries, List.map_append, List.map_append, map_key_span, Record.map_key_span,
    Record.map_key_entry]

theorem nodup_keys (h : session.Holds loaded added) :
    (session.index.entries.map Entry.key).Nodup := by
  rw [h.entries, List.map_append, Record.map_key_entry]
  exact h.distinct

/-- **A key has a place** where there is an entry with this key, and its offset sums up the sizes
of the records before it. -/
theorem get?_eq_some_iff (h : session.Holds loaded added) {key : Bytes} {slot : Slot} :
    session.lookup.get? key = some slot ↔
      ∃ e, session.index.get? slot.ordinal = some e ∧ e.key = key ∧
        slot.offset = session.dataStart
          + extent ((loaded.map Entry.span ++ added.map Record.span).take slot.ordinal) := by
  have hkeys := congrArg (·[slot.ordinal]?) h.map_key_spans
  simp only [List.getElem?_map] at hkeys
  rw [h.lookup, Lookup.get?_layout (h.map_key_spans ▸ h.nodup_keys), Index.get?]
  constructor
  · rintro ⟨s, hs, hk, ho⟩
    rw [hs, Option.map_some] at hkeys
    obtain ⟨e, he, hek⟩ := Option.map_eq_some_iff.mp hkeys.symm
    exact ⟨e, he, hek.trans hk, ho⟩
  · rintro ⟨e, he, hk, ho⟩
    rw [he, Option.map_some] at hkeys
    obtain ⟨s, hs, hsk⟩ := Option.map_eq_some_iff.mp hkeys
    exact ⟨s, hs, hsk.trans hk, ho⟩

/-- A key is located where the lookup has a place for it. -/
theorem locate?_eq (h : session.Holds loaded added) {key : Bytes} {slot : Slot}
    (hslot : session.lookup.get? key = some slot) :
    ∃ e, session.index.get? slot.ordinal = some e ∧ e.key = key ∧
      session.locate? key = some
        (if slot.offset < session.baseSize then
          ⟨key, slot.ordinal, .base, slot.offset, e.size.toNat, e.length.toNat⟩
        else ⟨key, slot.ordinal, .pending, slot.offset - session.baseSize, e.size.toNat,
          e.length.toNat⟩) := by
  obtain ⟨e, he, hk, -⟩ := h.get?_eq_some_iff.mp hslot
  refine ⟨e, he, hk, ?_⟩
  simp only [locate?, hslot, he, Option.bind_eq_bind, Option.bind_some]
  by_cases hb : slot.offset < session.baseSize
  · rw [if_pos hb, if_pos hb]; rfl
  · rw [if_neg hb, if_neg hb]; rfl

/-- **A key is found when it is contained.** -/
theorem find_fst (h : session.Holds loaded added) (key : Bytes) :
    (session.find key).1 = session.contains key := by
  rw [find, contains, Lookup.contains]
  cases hs : session.lookup.get? key with
  | none => simp [locate?, hs]
  | some slot =>
    obtain ⟨e, -, -, hl⟩ := h.locate?_eq hs
    simp [hl]

end Holds

/-! ## 4. Opening -/

theorem holds_ofNothing (path : String) (config : SessionConfig) (snapshot : Snapshot) :
    (ofNothing path config snapshot).Holds [] [] where
  entries := rfl
  lookup := rfl
  distinct := List.nodup_nil
  baseSize := rfl
  base := nofun
  noBase := ⟨fun _ => rfl, fun _ => rfl⟩
  nothing := fun _ => rfl
  buffer := nofun
  noBuffer := fun _ => rfl
  readOnly := nofun
  level := nofun

/-- A session on a base file has loaded what the bytes say. -/
theorem holds_ofBase {fs : FileSystem} {node : NodeId} {bytes : Bytes} {contents : Contents}
    (hb : fs.contentOf node = .ok bytes) (hc : Contents.parse bytes = .ok contents)
    (path : String) {mode : Mode} (hm : mode ≠ .create) (config : SessionConfig) :
    (ofBase path mode config (.ofContents fs node contents) contents).Holds
      contents.index.entries [] := by
  obtain ⟨hd, hl, hs⟩ := Contents.parse_eq_ok hc
  exact {
    entries := by simp [ofBase]
    lookup := by rw [List.map_nil, List.append_nil]; exact hl
    distinct := by rw [List.map_nil, List.append_nil]; exact hd
    baseSize := (FileSystem.identityOf_size hb).trans hs.symm
    base := by
      rintro base hbase
      rw [← Option.some.inj hbase]
      exact Cursor.coherent_new _
    noBase := ⟨fun h => absurd h (by simp [ofBase]), fun h => absurd h hm⟩
    nothing := fun h => absurd h (by simp [ofBase])
    buffer := nofun
    noBuffer := fun _ => rfl
    readOnly := fun _ => rfl
    level := nofun }

/-- **A session that has just been opened holds what was loaded**, and has added nothing. -/
theorem holds_open {fs : FileSystem} {path : String} {mode : Mode} {config : SessionConfig}
    {session : Session} (h : (Session.open fs path mode config).value = .ok session) :
    session.Holds session.index.entries [] := by
  rcases open_eq_ok.mp h with ⟨hm, base, contents, hb, rfl⟩ | ⟨-, snapshot, -, rfl⟩
  · obtain ⟨node, bytes, -, hbytes, hc, rfl⟩ := BaseFile.open_eq_some.mp hb
    exact holds_ofBase hbytes hc path hm config
  · exact holds_ofNothing path config snapshot

/-! ## 5. Calls -/

variable {session : Session} {loaded : List Entry} {added : List Record}

/-- Positioning a session elsewhere. -/
theorem Holds.withLast (h : session.Holds loaded added) (last : Option LastLookup) :
    ({ session with last } : Session).Holds loaded added :=
  ⟨h.entries, h.lookup, h.distinct, h.baseSize, h.base, h.noBase, h.nothing, h.buffer, h.noBuffer,
    h.readOnly, h.level⟩

/-- Moving the cursor of the base file. -/
theorem Holds.withBase (h : session.Holds loaded added) {old base : BaseFile}
    (hold : session.base = some old) (hsetup : base.setup = old.setup)
    (hcursor : base.cursor.Coherent) :
    ({ session with base := some base } : Session).Holds loaded added := by
  have hheader : base.header = old.header := congrArg (·.2.1) hsetup
  have hsize : base.size = old.size := congrArg (·.2.2.size) hsetup
  have hstart : ({ session with base := some base } : Session).dataStart = session.dataStart := by
    simp only [dataStart, hold, hheader]
  have hbase : ({ session with base := some base } : Session).baseSize = session.baseSize := by
    simp only [Session.baseSize, hold, hsize]
  have hcreate : session.mode ≠ .create := fun hm => by
    rw [h.noBase.mpr hm] at hold
    exact absurd hold (by simp)
  exact {
    entries := h.entries
    lookup := by rw [hstart]; exact h.lookup
    distinct := h.distinct
    baseSize := by rw [hstart, hbase]; exact h.baseSize
    base := fun b hb => Option.some.inj hb ▸ hcursor
    noBase := ⟨fun hn => absurd hn (by simp), fun hm => absurd hm hcreate⟩
    nothing := fun hn => absurd hn (by simp)
    buffer := h.buffer
    noBuffer := h.noBuffer
    readOnly := h.readOnly
    level := h.level }

/-- Moving the cursor of the buffer. -/
theorem Holds.withPending (h : session.Holds loaded added) {old buffer : PendingBuffer}
    (hold : session.pending = some old) (hb : buffer.Holds added) :
    ({ session with pending := some buffer } : Session).Holds loaded added :=
  ⟨h.entries, h.lookup, h.distinct, h.baseSize, h.base, h.noBase, h.nothing,
    fun _ hb' => Option.some.inj hb' ▸ hb, fun hn => absurd hn (by simp),
    fun hm => absurd (h.readOnly hm) (by simp [hold]), h.level⟩

theorem holds_find (h : session.Holds loaded added) (key : Bytes) :
    (session.find key).2.Holds loaded added := h.withLast _

theorem holds_fetch (h : session.Holds loaded added) (fs : FileSystem) :
    (session.fetch fs).2.Holds loaded added := by
  unfold fetch
  split
  · exact h
  · split
    · split
      · exact h
      · rename_i base hb
        exact h.withBase hb (BaseFile.setup_readRecord base fs _ _ _)
          (BaseFile.coherent_readRecord (h.base base hb) fs _ _ _)
    · split
      · exact h
      · rename_i buffer hb
        exact h.withPending hb (PendingBuffer.holds_readRecord (h.buffer buffer hb) _ _ _)

theorem holds_get (h : session.Holds loaded added) (fs : FileSystem) (key : Bytes) :
    (session.get fs key).2.Holds loaded added := by
  have hf := holds_find h key
  unfold get
  split
  · rename_i heq
    rwa [heq] at hf
  · rename_i heq
    rw [heq] at hf
    exact holds_fetch hf fs

/-- The record that a session would add. -/
def newRecord (session : Session) (key value : Bytes) (metadata : Option Bytes) : Record :=
  ⟨⟨key, value, metadata⟩, session.config.level⟩

/-- **Appending a record keeps index, lookup and buffer in step.** -/
theorem holds_append (h : session.Holds loaded added) {buffer : PendingBuffer}
    (hb : buffer.Holds added) (hm : session.mode ≠ .read) {key : Bytes}
    (hk : session.contains key = false) (value : Bytes) (metadata : Option Bytes) :
    (session.append buffer key value metadata).Holds loaded
      (added ++ [session.newRecord key value metadata]) := by
  have hbuffer := PendingBuffer.holds_append hb (session.newRecord key value metadata)
  have hfst := PendingBuffer.append_fst hb (session.newRecord key value metadata)
  simp only [newRecord] at hbuffer hfst
  have hnew : key ∉ loaded.map Entry.key ++ added.map (·.key) := fun hmem => by
    rw [h.contains_iff.mpr hmem] at hk
    exact absurd hk (by simp)
  have hspans : (loaded.map Entry.span ++ added.map Record.span).map Span.key
      = loaded.map Entry.key ++ added.map (·.key) := by
    rw [List.map_append, map_key_span, Record.map_key_span]
  have hsize : session.index.size = (loaded.map Entry.span ++ added.map Record.span).length := by
    simp [Index.size, h.entries]
  have hend : session.baseSize + extent (added.map Record.span)
      = session.dataStart + extent (loaded.map Entry.span ++ added.map Record.span) := by
    rw [← h.endOffset_eq, h.lookup, Lookup.layout_endOffset]
  exact {
    entries := by
      simp only [append, Index.push, h.entries, hfst, List.append_assoc, List.map_append,
        newRecord]
      rfl
    lookup := by
      simp only [append, hfst, h.lookup, hsize, hend]
      rw [Lookup.insert_layout (hspans ▸ hnew)]
      simp only [List.map_append, List.append_assoc]
      rfl
    distinct := by
      rw [List.map_append, ← List.append_assoc, List.map_singleton, ← List.concat_eq_append,
        List.nodup_concat]
      exact ⟨hnew, h.distinct⟩
    baseSize := h.baseSize
    base := h.base
    noBase := h.noBase
    nothing := h.nothing
    buffer := fun b hb => Option.some.inj hb ▸ hbuffer
    noBuffer := fun hn => absurd hn (by simp [append])
    readOnly := fun hr => absurd hr hm
    level := by
      intro r hr
      rcases List.mem_append.mp hr with hr | hr
      · exact h.level r hr
      · rw [List.mem_singleton.mp hr]
        rfl }

/-- The record, where the answer to adding it was `true`. -/
def accepted (r : Record) : Except Error Bool → List Record
  | .ok true => [r]
  | _ => []

/-- What a call has added at a level, going by its answer. -/
def additions (level : Zstd.Level) : (c : Call) → c.Answer → List Record
  | .add key value metadata, answer => accepted ⟨⟨key, value, metadata⟩, level⟩ answer
  | .addValue codec key value metadata, answer =>
    accepted ⟨⟨key, codec.encode value, metadata⟩, level⟩ answer
  | .contains _, _ | .find _, _ | .fetch, _ | .get _, _ | .metadata, _ | .last, _ | .size, _
  | .info, _ | .fetchValue _, _ => []

/-- Adding appends the record when the answer is `true`, and nothing otherwise. -/
theorem holds_add (h : session.Holds loaded added) (fs : FileSystem) (key value : Bytes)
    (metadata : Option Bytes) :
    (session.settle (session.add fs key value metadata).value).2.Holds loaded
      (added ++ accepted (session.newRecord key value metadata)
        (session.settle (session.add fs key value metadata).value).1) := by
  rcases add_cases session fs key value metadata with
    ⟨-, ha⟩ | ⟨⟨hm, hk⟩, ⟨cause, -, -, ha⟩ | ⟨buffer, hb, ha⟩⟩
  · rw [ha]
    simpa [settle, accepted] using h
  · rw [ha]
    simpa [settle, accepted] using h
  · rw [ha]
    rcases hb with hb | ⟨hp, -, rfl⟩
    · exact holds_append h (h.buffer buffer hb) hm hk value metadata
    · obtain rfl := h.noBuffer hp
      exact holds_append h PendingBuffer.holds_empty hm hk value metadata

/-- **A call adds the one record that its answer tells of, or none.** -/
theorem holds_call (h : session.Holds loaded added) (fs : FileSystem) (c : Call) :
    (session.call fs c).2.Holds loaded
      (added ++ additions session.config.level c (session.call fs c).1) := by
  cases c with
  | contains key | metadata | last | size | info => simpa [call, additions] using h
  | find key => simpa [call, additions] using holds_find h key
  | fetch => simpa [call, additions] using holds_fetch h fs
  | get key => simpa [call, additions] using holds_get h fs key
  | add key value metadata => exact holds_add h fs key value metadata
  | addValue codec key value metadata =>
    simp only [call, addValue_value]
    exact holds_add h fs key (codec.encode value) metadata
  | fetchValue codec => simpa [call, fetchValue, additions] using holds_fetch h fs

theorem pending_fetch_eq_none_iff (session : Session) (fs : FileSystem) :
    (session.fetch fs).2.pending = none ↔ session.pending = none := by
  unfold fetch
  split
  · rfl
  · split
    · split <;> rfl
    · split
      · rfl
      · rename_i buffer hb
        simp [hb]

theorem pending_get_eq_none_iff (session : Session) (fs : FileSystem) (key : Bytes) :
    (session.get fs key).2.pending = none ↔ session.pending = none := by
  have hfind : (session.find key).2.pending = session.pending := rfl
  unfold get
  split
  · rename_i heq
    rw [heq] at hfind
    rw [← hfind]
  · rename_i heq
    rw [heq] at hfind
    rw [← hfind]
    exact pending_fetch_eq_none_iff _ fs

theorem pending_add_eq_none_iff (session : Session) (fs : FileSystem) (key value : Bytes)
    (metadata : Option Bytes) :
    (session.settle (session.add fs key value metadata).value).2.pending = none ↔
      session.pending = none ∧ accepted (session.newRecord key value metadata)
        (session.settle (session.add fs key value metadata).value).1 = [] := by
  rcases add_cases session fs key value metadata with
    ⟨-, ha⟩ | ⟨-, ⟨cause, -, -, ha⟩ | ⟨buffer, -, ha⟩⟩
  · rw [ha]
    simp [settle, accepted]
  · rw [ha]
    simp [settle, accepted]
  · rw [ha]
    simp [settle, accepted, append]

/-- **A buffer stays, and only an addition makes one.** -/
theorem pending_call_eq_none_iff (session : Session) (fs : FileSystem) (c : Call) :
    (session.call fs c).2.pending = none ↔
      session.pending = none ∧ additions session.config.level c (session.call fs c).1 = [] := by
  cases c with
  | contains key | find key | metadata | last | size | info => simp [call, find, additions]
  | fetch => simpa [call, additions] using pending_fetch_eq_none_iff session fs
  | fetchValue codec =>
    simpa [call, fetchValue, additions] using pending_fetch_eq_none_iff session fs
  | get key => simpa [call, additions] using pending_get_eq_none_iff session fs key
  | add key value metadata => exact pending_add_eq_none_iff session fs key value metadata
  | addValue codec key value metadata =>
    simp only [call, addValue_value]
    exact pending_add_eq_none_iff session fs key _ metadata

/-- **Every session that calls lead to holds some records** behind those that were loaded. -/
theorem Reachable.holds {start : Session} (h : Reachable start session)
    (hs : start.Holds loaded []) : ∃ added, session.Holds loaded added := by
  induction h with
  | start => exact ⟨[], hs⟩
  | call fs c _ ih =>
    obtain ⟨added, ih⟩ := ih
    exact ⟨_, holds_call ih fs c⟩

end Session
end ConstStore
