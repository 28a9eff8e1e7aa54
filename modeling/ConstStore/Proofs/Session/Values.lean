/-
# Values come back

`Session.Holds` knows the loaded records only by their entries.  When the base file was written by
a session, its records are there, one behind the other, and a session on it `Carries` them with
those that it has added since.  Then whatever is found can be fetched, and gives the value that
was added under this key.

* `Holds.fetch_of_mem`: a record that a session has added comes back from its buffer.
* `Points`: what a session remembers of a record that was found.
* `Carries.points_of_locate?`, `Carries.locate?_eq_none`: what finding a key gives.
* `Carries.fetch_eq`: fetching gives the value.
* `Carries.call`: a call leaves a session that carries what it did, and what the call has added.
-/
import ConstStore.Proofs.Session.Owner
import ConstStore.Proofs.Session.Publish

namespace ConstStore

/-! ## 1. Records -/

namespace Record

/-- The numbers of a record have 64 bits. -/
structure Fits (r : Record) : Prop where
  frame : r.frame.length < UInt64.size
  value : r.value.length < UInt64.size

theorem Fits.size_entry {r : Record} (h : r.Fits) : r.entry.size.toNat = r.frame.length :=
  UInt64.toNat_ofNat_of_lt' h.frame

theorem Fits.length_entry {r : Record} (h : r.Fits) : r.entry.length.toNat = r.value.length :=
  UInt64.toNat_ofNat_of_lt' h.value

theorem map_span_of_fits {records : List Record} (h : ∀ r ∈ records, r.Fits) :
    (records.map entry).map Entry.span = records.map span := by
  rw [List.map_map]
  exact List.map_congr_left fun r hr => span_entry (h r hr).frame

/-- A record takes at least one byte, so none of them trails. -/
theorem not_trailing {loaded : List Record} (h : ∀ r ∈ loaded, r.Fits) (ordinal : Nat) :
    ¬ Trailing (loaded.map entry) ordinal := by
  intro ht
  have hlt := ht.1
  rw [List.length_map] at hlt
  have hzero := ht.size_eq_zero (by rw [List.getElem?_map, List.getElem?_eq_getElem hlt]; rfl)
  have hsize := (h _ (List.getElem_mem hlt)).size_entry
  have hpos := size_compress_pos loaded[ordinal].level loaded[ordinal].value
  rw [hzero] at hsize
  exact absurd hsize (Nat.ne_of_lt hpos)

/-- The frame of a record stands behind those of the records before it. -/
theorem slice_frames {records : List Record} {n : Nat} {r : Record} (h : records[n]? = some r) :
    (frames records).slice (frames (records.take n)).length r.frame.length = r.frame ∧
      (frames (records.take n)).length + r.frame.length ≤ (frames records).length := by
  obtain ⟨hn, hr⟩ := List.getElem?_eq_some_iff.mp h
  have hsplit : frames records
      = frames (records.take n) ++ (r.frame ++ frames (records.drop (n + 1))) := by
    rw [← frames_singleton, ← frames_append, ← frames_append, ← hr, List.singleton_append,
      List.getElem_cons_drop, List.take_append_drop]
  rw [hsplit]
  refine ⟨Bytes.slice_append rfl rfl, ?_⟩
  simp only [List.length_append]
  omega

theorem length_frame_le {records : List Record} {r : Record} (h : r ∈ records) :
    r.frame.length ≤ (frames records).length := by
  obtain ⟨n, hn⟩ := List.mem_iff_getElem?.mp h
  exact Nat.le_trans (Nat.le_add_left _ _) (slice_frames hn).2

end Record

/-! ## 2. Reading loaded and added records -/

namespace Session

/-- A loaded record is read from the records of the base file. -/
theorem Holds.fetch_region {session : Session} {loaded : List Entry} {added : List Record}
    (h : session.Holds loaded added) {files : FileSystem} (hbase : session.BaseIn files)
    {last : LastLookup} (hlast : session.last = some last) {e : Entry}
    (he : loaded[last.ordinal]? = some e)
    (howner : (last.source, last.offset) = owner session.dataStart loaded added last.ordinal)
    (hsize : last.size = e.size.toNat) :
    (session.fetch files).1 = decompress ((session.region files).slice
      (extent ((loaded.take last.ordinal).map Entry.span)) last.size) last.length := by
  obtain ⟨hlt, hloaded⟩ := List.getElem?_eq_some_iff.mp he
  cases hb : session.base with
  | none =>
    rw [h.nothing hb] at hlt
    exact absurd hlt (Nat.not_lt_zero _)
  | some base =>
    obtain ⟨content, hcontent, hcomplete⟩ := hbase base hb
    rw [h.fetch_loaded hb hcontent hcomplete hlast hlt howner (hloaded ▸ hsize)]
    rw [owner, if_pos hlt, Prod.mk.injEq] at howner
    simp only [region, hb, hcontent, Bytes.slice_drop, howner.2, dataStart]

/-- **A record that was added is found, and fetching it gives its value**, whatever has become of
the files. -/
theorem Holds.fetch_of_mem {session : Session} {loaded : List Entry} {added : List Record}
    (h : session.Holds loaded added) (hpending : session.pendingBytes < UInt64.size) {r : Record}
    (hr : r ∈ added) (hvalue : r.value.length < UInt64.size) (files : FileSystem) :
    (session.find r.key).1 = true ∧ ((session.find r.key).2.fetch files).1 = .ok r.value := by
  obtain ⟨n, hn⟩ := List.mem_iff_getElem?.mp hr
  have hfits : r.Fits :=
    ⟨Nat.lt_of_le_of_lt (Record.length_frame_le hr) (h.length_frames ▸ hpending), hvalue⟩
  have he : session.index.get? (loaded.length + n) = some r.entry := by
    rw [Index.get?, h.entries, List.getElem?_append_right (Nat.le_add_right _ _),
      Nat.add_sub_cancel_left, List.getElem?_map, hn]
    rfl
  obtain ⟨last, hl, hordinal⟩ := h.exists_locate? he
  obtain ⟨e, he', -, ⟨-, hsize, hlength⟩, howner, -⟩ := h.owner_of_locate? hl
  rw [hordinal] at he' howner
  obtain rfl := Option.some.inj (he.symm.trans he')
  have hout : ¬ loaded.length + n < loaded.length := by omega
  have howner := howner fun ht => hout ht.1
  rw [owner, if_neg hout, Nat.add_sub_cancel_left] at howner
  rw [hfits.size_entry] at hsize
  have hlast : (session.find r.key).2.last = some last := hl
  refine ⟨Option.isSome_iff_exists.mpr ⟨last, hl⟩, ?_⟩
  rw [(holds_find h r.key).fetch_added hlast hn howner (Nat.le_of_eq hsize), hsize, hlength,
    hfits.length_entry, (Prod.mk.inj howner).2, (Record.slice_frames hn).1]
  exact decompress_compress r.level r.value

end Session

/-! ## 3. Sessions on the records of sessions -/

/-- What a session that has found a record remembers of it. -/
structure Points (dataStart : Nat) (loaded added : List Record) (last : LastLookup)
    (r : Record) : Prop where
  record : (loaded ++ added)[last.ordinal]? = some r
  key : last.key = r.key
  place : (last.source, last.offset)
    = owner dataStart (loaded.map Record.entry) added last.ordinal
  size : last.size = r.frame.length
  length : last.length = r.value.length

/-- More records behind the others do not move the ones before. -/
theorem Points.append {dataStart : Nat} {loaded added : List Record} {last : LastLookup}
    {r : Record} (h : Points dataStart loaded added last r) (more : List Record) :
    Points dataStart loaded (added ++ more) last r := by
  have hrecord := h.record
  obtain ⟨hlt, -⟩ := List.getElem?_eq_some_iff.mp hrecord
  rw [List.length_append] at hlt
  refine ⟨?_, h.key, ?_, h.size, h.length⟩
  · rw [← List.append_assoc, List.getElem?_append_left (by rw [List.length_append]; omega)]
    exact hrecord
  · rw [h.place, owner_append (by rw [List.length_map]; omega)]

namespace Session

/-- The session has loaded and added these records, and the loaded ones stand in its base file. -/
structure Carries (session : Session) (fs : FileSystem) (loaded added : List Record) : Prop where
  holds : session.Holds (loaded.map Record.entry) added
  base : session.BaseIn fs
  region : session.region fs = Record.frames loaded
  fits : ∀ r ∈ loaded ++ added, r.Fits

namespace Carries

variable {session : Session} {fs : FileSystem} {loaded added : List Record} {key : Bytes}
  {last : LastLookup} {r : Record}

theorem map_key_entries (h : session.Carries fs loaded added) :
    session.index.entries.map Entry.key = (loaded ++ added).map (·.key) := by
  rw [h.holds.entries, ← List.map_append, Record.map_key_entry]

theorem nodup (h : session.Carries fs loaded added) :
    ((loaded ++ added).map (·.key)).Nodup := by
  rw [← h.map_key_entries]
  exact h.holds.nodup_keys

theorem contains_iff (h : session.Carries fs loaded added) :
    session.contains key = true ↔ key ∈ (loaded ++ added).map (·.key) := by
  rw [h.holds.contains_iff, Record.map_key_entry, List.map_append]

/-- **Finding a key** remembers the record with this key. -/
theorem points_of_locate? (h : session.Carries fs loaded added)
    (hl : session.locate? key = some last) :
    ∃ r, Points session.dataStart loaded added last r ∧ r.key = key := by
  obtain ⟨e, he, hk, ⟨hkey, hsize, hlength⟩, howner, -⟩ := h.holds.owner_of_locate? hl
  rw [Index.get?, h.holds.entries, ← List.map_append, List.getElem?_map] at he
  obtain ⟨r, hr, rfl⟩ := Option.map_eq_some_iff.mp he
  have hfits := h.fits r (List.mem_of_getElem? hr)
  refine ⟨r, ⟨hr, hkey.trans hk.symm, ?_, ?_, ?_⟩, hk⟩
  · exact howner (Record.not_trailing (fun s hs => h.fits s (List.mem_append_left _ hs)) _)
  · exact hsize.trans hfits.size_entry
  · exact hlength.trans hfits.length_entry

theorem locate?_eq_none (h : session.Carries fs loaded added) :
    session.locate? key = none ↔ key ∉ (loaded ++ added).map (·.key) := by
  rw [← h.contains_iff, ← h.holds.find_fst, find]
  cases session.locate? key <;> simp

/-- A loaded record is read from the base file. -/
theorem fetch_loaded (h : session.Carries fs loaded added) (hlast : session.last = some last)
    (hp : Points session.dataStart loaded added last r) (hlt : last.ordinal < loaded.length) :
    (session.fetch fs).1 = .ok r.value := by
  have hrecord := hp.record
  rw [List.getElem?_append_left hlt] at hrecord
  have hfits := fun s hs => h.fits s (List.mem_append_left added hs)
  have he : (loaded.map Record.entry)[last.ordinal]? = some r.entry := by
    rw [List.getElem?_map, hrecord]
    rfl
  have hsize : last.size = r.entry.size.toNat :=
    hp.size.trans (hfits r (List.mem_of_getElem? hrecord)).size_entry.symm
  rw [h.holds.fetch_region h.base hlast he hp.place hsize, h.region, ← List.map_take,
    Record.map_span_of_fits fun s hs => hfits s (List.mem_of_mem_take hs),
    ← Record.length_frames, hp.size, hp.length, (Record.slice_frames hrecord).1]
  exact decompress_compress r.level r.value

/-- An added record is read from the buffer. -/
theorem fetch_added (h : session.Carries fs loaded added) (hlast : session.last = some last)
    (hp : Points session.dataStart loaded added last r) (hle : loaded.length ≤ last.ordinal) :
    (session.fetch fs).1 = .ok r.value := by
  have hrecord := hp.record
  rw [List.getElem?_append_right hle] at hrecord
  have hplace := hp.place
  rw [owner, if_neg (by rw [List.length_map]; omega), List.length_map] at hplace
  rw [h.holds.fetch_added hlast hrecord hplace (Nat.le_of_eq hp.size), hp.size, hp.length,
    (Prod.mk.inj hplace).2, (Record.slice_frames hrecord).1]
  exact decompress_compress r.level r.value

/-- **Fetching what was found gives the value of the record.** -/
theorem fetch_eq (h : session.Carries fs loaded added) (hlast : session.last = some last)
    (hp : Points session.dataStart loaded added last r) :
    (session.fetch fs).1 = .ok r.value := by
  by_cases hlt : last.ordinal < loaded.length
  · exact h.fetch_loaded hlast hp hlt
  · exact h.fetch_added hlast hp (Nat.le_of_not_lt hlt)

theorem metadata?_eq (h : session.Carries fs loaded added) (hlast : session.last = some last)
    (hp : Points session.dataStart loaded added last r) : session.metadata? = r.metadata := by
  have hentry : session.index.get? last.ordinal = some r.entry := by
    rw [Index.get?, h.holds.entries, ← List.map_append, List.getElem?_map, hp.record]
    rfl
  simp only [metadata?, hlast, hentry, Option.bind_eq_bind, Option.bind_some]
  rfl

/-! ## 4. Calls -/

/-- **A call leaves a session that carries what it did**, and what the call has added. -/
theorem call (h : session.Carries fs loaded added) (c : Call) (hnext : (session.call fs c).2.Fits)
    (hvalue : ∀ r ∈ additions session.config.level c (session.call fs c).1,
      r.value.length < UInt64.size) :
    (session.call fs c).2.Carries fs loaded
      (added ++ additions session.config.level c (session.call fs c).1) := by
  have hsetup := sameSetup_call session fs c
  have hholds := holds_call h.holds fs c
  have hbytes := hnext.pendingBytes_lt
  rw [← hholds.length_frames] at hbytes
  refine ⟨hholds, h.base.sameSetup hsetup, (region_sameSetup hsetup fs).trans h.region, ?_⟩
  intro r hr
  rw [← List.append_assoc] at hr
  rcases List.mem_append.mp hr with hr | hr
  · exact h.fits r hr
  · refine ⟨Nat.lt_of_le_of_lt ?_ hbytes, hvalue r hr⟩
    exact Record.length_frame_le (List.mem_append_right _ hr)

end Carries

/-! ## 5. What a session remembers -/

theorem dataStart_sameSetup {session next : Session} (hs : SameSetup session next) :
    next.dataStart = session.dataStart := by
  rcases hs.base_cases with ⟨hold, hnew⟩ | ⟨old, base, hold, hnew, hsetup⟩
  · simp only [dataStart, hold, hnew]
  · have hheader : base.header = old.header := congrArg (·.2.1) hsetup
    simp only [dataStart, hold, hnew, hheader]

/-- Fetching does not forget what was found. -/
theorem last_fetch (session : Session) (fs : FileSystem) :
    (session.fetch fs).2.last = session.last := by
  unfold fetch
  split
  · rfl
  · split
    · split <;> rfl
    · split <;> rfl

theorem last_get (session : Session) (fs : FileSystem) (key : Bytes) :
    (session.get fs key).2.last = session.locate? key := by
  have hfind : (session.find key).2.last = session.locate? key := rfl
  unfold get
  split
  · rename_i heq
    rw [← hfind, heq]
  · rename_i next heq
    rw [← hfind, heq]
    exact last_fetch next fs

theorem last_add (session : Session) (fs : FileSystem) (key value : Bytes)
    (metadata : Option Bytes) :
    (session.settle (session.add fs key value metadata).value).2.last = session.last := by
  rcases add_cases session fs key value metadata with
    ⟨-, ha⟩ | ⟨-, ⟨cause, -, -, ha⟩ | ⟨buffer, -, ha⟩⟩
  · rw [ha]; rfl
  · rw [ha]; rfl
  · rw [ha]; rfl

end Session
end ConstStore
