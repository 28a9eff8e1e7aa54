/-
# Keeping a lookup beside a growing index

A lookup can be built of an index, and it can be kept beside an index that grows: each new entry is
pushed onto the index, and the place where the last record ends is entered under its key.  Opening a
store does the one and adding to it does the other, so what has been added is found again only if
both come to the same.

* `Lookup.Describes.agrees`: what a lookup says of an index settles all its answers.
* `Catalog.Kept.push`, `Catalog.Kept.pushAll`: one entry is entered, and one after the other.
* `Catalog.Kept.exists_build`: what has been kept agrees with what is built anew.
* `Catalog.pushAll_follows`: so growing comes to the same as building.
* `Session.catalog_add`, `Session.agrees_of_reachable`: sessions enter the records that they add in
  this way, so they look keys up where the next session will.
-/
import ConstStore.Proofs.Building
import ConstStore.Proofs.Session.Consistent

namespace ConstStore

/-! ## 1. Lookups that agree -/

namespace Lookup

/-- Two lookups answer alike, whatever order their tables hold the places in. -/
structure Agrees (lookup other : Lookup) : Prop where
  place : ∀ key, lookup.get? key = other.get? key
  ends : lookup.endOffset = other.endOffset
  size : lookup.size = other.size
  snapshot : ∀ slots slots', slots.Perm lookup.slots → slots'.Perm other.slots →
    Lookup.snapshot ⟨slots, lookup.endOffset⟩ = Lookup.snapshot ⟨slots', other.endOffset⟩

/-- **What a lookup says of an index settles all its answers.** -/
theorem Describes.agrees {lookup other : Lookup} {index : Index} {start : Nat}
    (h : lookup.Describes index start) (h' : other.Describes index start) :
    lookup.Agrees other where
  place := by
    intro key
    refine Option.ext fun slot => ?_
    rw [h.place, h'.place]
  ends := h.ends.trans h'.ends.symm
  size := h.size.trans h'.size.symm
  snapshot := by
    intro slots slots' hperm hperm'
    refine List.ext_getElem? fun n => ?_
    rw [h.snapshot slots hperm, h'.snapshot slots' hperm']

end Lookup

/-! ## 2. Catalogs -/

/-- An index, and the lookup that is kept beside it. -/
structure Catalog where
  index : Index
  lookup : Lookup
  deriving Repr, DecidableEq

namespace Catalog

/-- Nothing yet.  The first record will stand at `start`. -/
def empty (start : Nat) : Catalog := ⟨.empty, .empty start⟩

/-- The catalog with one more entry.  It has the ordinal that the index gives it, and its record
stands where the last one ends. -/
def push (catalog : Catalog) (e : Entry) : Catalog where
  index := catalog.index.push e
  lookup := catalog.lookup.insert e.key ⟨catalog.index.size, catalog.lookup.endOffset⟩
    e.size.toNat

/-- The catalog with these entries behind its own, one after the other. -/
def pushAll (catalog : Catalog) (entries : List Entry) : Catalog := entries.foldl push catalog

/-- The keys are distinct, and the lookup holds the places of the entries. -/
structure Kept (catalog : Catalog) (start : Nat) : Prop where
  distinct : (catalog.index.entries.map Entry.key).Nodup
  lookup : catalog.lookup = .layout start (catalog.index.entries.map Entry.span)

variable {catalog : Catalog} {start : Nat}

theorem kept_empty (start : Nat) : (empty start).Kept start := ⟨List.nodup_nil, rfl⟩

/-- What has been built can be kept from there on. -/
theorem kept_of_build {index : Index} {lookup : Lookup}
    (h : Lookup.build index start = .ok lookup) : (Catalog.mk index lookup).Kept start := by
  obtain ⟨hd, hlookup, -⟩ := Lookup.build_eq_ok h
  exact ⟨hd, hlookup⟩

/-- The entries of a catalog with more. -/
theorem entries_pushAll (entries : List Entry) : ∀ catalog : Catalog,
    (catalog.pushAll entries).index.entries = catalog.index.entries ++ entries := by
  induction entries with
  | nil => exact fun catalog => (List.append_nil _).symm
  | cons e entries ih =>
    intro catalog
    calc ((catalog.push e).pushAll entries).index.entries
      _ = (catalog.index.entries ++ [e]) ++ entries := ih (catalog.push e)
      _ = catalog.index.entries ++ (e :: entries) := List.append_assoc _ _ _

namespace Kept

/-- **An entry with a new key is entered.** -/
theorem push (h : catalog.Kept start) {e : Entry}
    (hk : e.key ∉ catalog.index.entries.map Entry.key) : (catalog.push e).Kept start where
  distinct := by
    rw [Catalog.push, Index.push, List.map_append, List.map_singleton, ← List.concat_eq_append,
      List.nodup_concat]
    exact ⟨hk, h.distinct⟩
  lookup := by
    have hsize : catalog.index.size = (catalog.index.entries.map Entry.span).length :=
      (List.length_map _).symm
    simp only [Catalog.push, Index.push, h.lookup, hsize, Lookup.layout_endOffset]
    rw [Lookup.insert_layout (by rwa [map_key_span]), List.map_append]
    rfl

/-- **Entries with new keys are entered one after the other.** -/
theorem pushAll (entries : List Entry) : ∀ {catalog : Catalog}, catalog.Kept start →
    ((catalog.index.entries ++ entries).map Entry.key).Nodup →
    (catalog.pushAll entries).Kept start := by
  induction entries with
  | nil => exact fun h _ => h
  | cons e entries ih =>
    intro catalog h hd
    rw [List.append_cons] at hd
    have hfront : ((catalog.index.entries ++ [e]).map Entry.key).Nodup :=
      hd.sublist ((List.sublist_append_left _ _).map Entry.key)
    rw [List.map_append, List.map_singleton, ← List.concat_eq_append, List.nodup_concat] at hfront
    exact ih (h.push hfront.1) hd

theorem describes (h : catalog.Kept start) : catalog.lookup.Describes catalog.index start := by
  rw [h.lookup]
  exact Lookup.describes_layout h.distinct start

/-- **What has been kept agrees with what is built anew.** -/
theorem exists_build (h : catalog.Kept start)
    (hend : start + catalog.index.recordBytes < UInt64.size) :
    ∃ rebuilt, Lookup.build catalog.index start = .ok rebuilt ∧ catalog.lookup.Agrees rebuilt := by
  rw [recordBytes_eq_extent] at hend
  exact ⟨_, Lookup.build_of_nodup h.distinct hend,
    h.describes.agrees (Lookup.describes_layout h.distinct start)⟩

end Kept

/-! ## 3. Growing and building -/

/-- Entering these entries one after the other comes to the same as building a lookup of all. -/
structure Follows (catalog : Catalog) (start : Nat) (entries : List Entry) : Prop where
  index : (catalog.pushAll entries).index.entries = catalog.index.entries ++ entries
  /-- No record ends beyond 2^64 on the way. -/
  inside : ∀ n, (catalog.pushAll (entries.take n)).lookup.endOffset < UInt64.size
  built : ∃ rebuilt, Lookup.build (catalog.pushAll entries).index start = .ok rebuilt ∧
    (catalog.pushAll entries).lookup.Agrees rebuilt

/-- A catalog that has been kept so far goes on like this. -/
theorem Kept.follows (h : catalog.Kept start) {entries : List Entry}
    (hd : ((catalog.index.entries ++ entries).map Entry.key).Nodup)
    (hend : start + Index.recordBytes ⟨catalog.index.entries ++ entries⟩ < UInt64.size) :
    catalog.Follows start entries where
  index := entries_pushAll entries catalog
  inside := by
    intro n
    have hfront : catalog.index.entries ++ entries.take n <+: catalog.index.entries ++ entries :=
      (List.prefix_append_right_inj _).mpr (List.take_prefix n entries)
    have hkept := h.pushAll (entries.take n) (hd.sublist (hfront.sublist.map Entry.key))
    -- the records of a front end where those behind it start, or before
    obtain ⟨behind, hbehind⟩ := hfront
    rw [← hbehind, recordBytes_eq_extent, List.map_append, extent_append] at hend
    rw [hkept.describes.ends, recordBytes_eq_extent, entries_pushAll]
    omega
  built := by
    have hindex : (catalog.pushAll entries).index = ⟨catalog.index.entries ++ entries⟩ :=
      congrArg Index.mk (entries_pushAll entries catalog)
    exact (h.pushAll entries hd).exists_build (hindex ▸ hend)

/-- **Growing comes to the same as building.**  Entries with new and distinct keys are entered one
after the other, into an index with the lookup that was built of it, or into an empty one, and the
last record ends below 2^64.  Then building succeeds for the index with all entries, and the lookup
that has been kept agrees with the one that is built. -/
theorem pushAll_follows (start : UInt64) {entries : List Entry}
    (hd : (entries.map Entry.key).Nodup) :
    (∀ index lookup, Lookup.build index start.toNat = .ok lookup →
      (∀ e ∈ entries, e.key ∉ index.entries.map Entry.key) →
      start.toNat + Index.recordBytes ⟨index.entries ++ entries⟩ < UInt64.size →
      (Catalog.mk index lookup).Follows start.toNat entries) ∧
    (start.toNat + Index.recordBytes ⟨entries⟩ < UInt64.size →
      (empty start.toNat).Follows start.toNat entries) := by
  constructor
  · intro index lookup hbuild hfresh hend
    have hkept := kept_of_build hbuild
    refine hkept.follows ?_ hend
    rw [List.map_append]
    refine List.nodup_append.mpr ⟨hkept.distinct, hd, ?_⟩
    rintro key hmem other hother rfl
    obtain ⟨e, he, rfl⟩ := List.mem_map.mp hother
    exact hfresh e he hmem
  · exact fun hend => (kept_empty start.toNat).follows hd hend

/-- A catalog of one record, which ends at 24. -/
def oneRecord : Catalog := ⟨⟨[⟨[], 4, 9, none⟩]⟩, ⟨[([], ⟨0, 20⟩)], 24⟩⟩

/-- Two entries, the second of which has a record without bytes. -/
def twoEntries : List Entry := [⟨[0x62], 7, 7, some []⟩, ⟨[0x61], 0, 0, none⟩]

/-- They are entered behind that record, and at the last place that has room for them. -/
theorem pushAll_follows_oneRecord :
    Lookup.build oneRecord.index 20 = .ok oneRecord.lookup ∧ oneRecord.Follows 20 twoEntries ∧
      (empty 18446744073709551608).Follows 18446744073709551608 twoEntries := by
  have hbuild : Lookup.build oneRecord.index 20 = .ok oneRecord.lookup := by decide
  refine ⟨hbuild, ?_, ?_⟩
  · exact (pushAll_follows 20 (by decide)).1 _ _ hbuild (by decide) (by decide)
  · exact (pushAll_follows 18446744073709551608 (by decide)).2 (by decide)

end Catalog

/-! ## 4. Sessions -/

namespace Session

/-- The records of a session, and where they are looked up. -/
def catalog (session : Session) : Catalog := ⟨session.index, session.lookup⟩

variable {session next : Session} {loaded : List Entry} {added : List Record}

/-- The lookup holds the places of the entries as long as these tell the sizes of the records. -/
theorem Holds.kept (h : session.Holds loaded added) (hsize : session.pendingBytes < UInt64.size) :
    session.catalog.Kept session.dataStart where
  distinct := h.nodup_keys
  lookup := by
    rw [catalog, h.map_span_entries hsize]
    exact h.lookup

/-- **A session enters the records that it adds in this way.**  It has the place of a new record
from the base file and the buffer, and that is where the last record ends. -/
theorem catalog_add (h : session.Holds loaded added) {fs : FileSystem} {key value : Bytes}
    {metadata : Option Bytes}
    (hsize : (session.newRecord key value metadata).frame.length < UInt64.size)
    (ha : (session.add fs key value metadata).value = .ok (true, next)) :
    next.catalog = session.catalog.push (session.newRecord key value metadata).entry := by
  have hpush : ∀ buffer : PendingBuffer, buffer.Holds added →
      (session.append buffer key value metadata).catalog
        = session.catalog.push (session.newRecord key value metadata).entry := by
    intro buffer hb
    have hfst := PendingBuffer.append_fst hb (session.newRecord key value metadata)
    simp only [newRecord] at hfst hsize
    simp only [catalog, Catalog.push, append, hfst, newRecord, Record.entry, h.endOffset_eq,
      UInt64.toNat_ofNat_of_lt' hsize]
  rcases add_cases session fs key value metadata with
    ⟨-, hno⟩ | ⟨-, ⟨cause, -, -, hno⟩ | ⟨buffer, hb, hyes⟩⟩
  · rw [ha] at hno
    exact absurd hno (by simp)
  · rw [ha] at hno
    exact absurd hno (by simp)
  · obtain ⟨-, rfl⟩ := Prod.mk.inj (Except.ok.inj (ha.symm.trans hyes))
    rcases hb with hb | ⟨hp, -, rfl⟩
    · exact hpush buffer (h.buffer buffer hb)
    · obtain rfl := h.noBuffer hp
      exact hpush .empty PendingBuffer.holds_empty

/-- **Every session looks keys up where the next one will**: building a lookup of its index gives
one that agrees with its own, as long as its records end below 2^64. -/
theorem agrees_of_reachable {fs : FileSystem} {path : String} {mode : Mode}
    {config : SessionConfig} {start : Session}
    (hopen : (Session.open fs path mode config).value = .ok start)
    (hreach : start.History added session)
    (hsize : session.baseSize + session.pendingBytes < UInt64.size) :
    ∃ rebuilt, Lookup.build session.index session.dataStart = .ok rebuilt ∧
      session.lookup.Agrees rebuilt := by
  have h := hreach.holds (holds_open hopen)
  have hconsistent := h.consistent (by omega)
  refine (h.kept (by omega)).exists_build ?_
  rw [← hconsistent.continues, hconsistent.ends] at hsize
  exact hsize

end Session
end ConstStore
