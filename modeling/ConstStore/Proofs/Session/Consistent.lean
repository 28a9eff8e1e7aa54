/-
# Index, lookup, base file and buffer agree

An index lists the entries of a session, a lookup gives their places, and two files hold the
records, one behind the other.  Nothing compares these four while a session is used; `Consistent`
says how they are related.  It is read off from what the session holds, and so it is true of every
session that a successful `open` and any calls lead to, calls that refuse or fail included.
-/
import ConstStore.Proofs.Session.History

namespace ConstStore
namespace Session

/-! ## 1. Agreement -/

/-- The size of the records before an ordinal. -/
def bytesBefore (session : Session) (ordinal : Nat) : Nat :=
  Index.recordBytes ⟨session.index.entries.take ordinal⟩

/-- The parts of a session that was opened with these entries agree. -/
structure Consistent (session : Session) (loaded : List Entry) : Prop where
  /-- No two entries have the same key. -/
  distinct : (session.index.entries.map Entry.key).Nodup
  /-- What was loaded stays in front. -/
  loaded_prefix : loaded <+: session.index.entries
  /-- A key has the place of its entry, and no other. -/
  place : ∀ key slot, session.lookup.get? key = some slot ↔
    ∃ e, session.index.get? slot.ordinal = some e ∧ e.key = key ∧
      slot.offset = session.dataStart + session.bytesBefore slot.ordinal
  /-- The places of all records, one for each entry. -/
  aligned : ∀ ordinal, session.info.slots[ordinal]? =
    session.info.entries[ordinal]?.map fun e : Entry =>
      (e.key, Slot.mk ordinal (session.dataStart + session.bytesBefore ordinal))
  /-- The last record ends behind all of them. -/
  ends : session.lookup.endOffset = session.dataStart + session.index.recordBytes
  /-- It ends where the buffer does, which continues the base file. -/
  continues : session.lookup.endOffset = session.baseSize + session.pendingBytes
  /-- The records that were not loaded are pending. -/
  pending : session.pendingRecords + loaded.length = session.size
  /-- A key that is contained is found. -/
  found : ∀ key, session.contains key = true ↔ (session.find key).1 = true
  /-- A key that is found has a value, unless fetching it fails. -/
  fetched : ∀ fs key, (session.find key).1 = true ↔ (session.get fs key).1 ≠ .ok none

/-! ## 2. Every session agrees -/

/-- A miss is the only way to get nothing. -/
theorem get_ne_none_iff (session : Session) (fs : FileSystem) (key : Bytes) :
    (session.find key).1 = true ↔ (session.get fs key).1 ≠ .ok none := by
  unfold get
  split
  · rename_i heq
    simp [heq]
  · rename_i next heq
    cases hv : (next.fetch fs).1 <;> simp [heq, hv, Except.map]

variable {session : Session} {loaded : List Entry} {added : List Record}

/-- Below 2^64 the entries tell the sizes of the records. -/
theorem Holds.map_span_entries (h : session.Holds loaded added)
    (hsize : session.pendingBytes < UInt64.size) :
    session.index.entries.map Entry.span = loaded.map Entry.span ++ added.map Record.span := by
  rw [h.pendingBytes_eq, ← Record.length_frames] at hsize
  rw [h.entries, List.map_append, Record.map_span_entry hsize]

theorem Holds.bytesBefore_eq (h : session.Holds loaded added)
    (hsize : session.pendingBytes < UInt64.size) (ordinal : Nat) :
    session.bytesBefore ordinal
      = extent ((loaded.map Entry.span ++ added.map Record.span).take ordinal) := by
  rw [bytesBefore, recordBytes_eq_extent, ← h.map_span_entries hsize, List.map_take]

/-- **A session that holds records is consistent**, as long as its records stay below 2^64. -/
theorem Holds.consistent (h : session.Holds loaded added)
    (hsize : session.pendingBytes < UInt64.size) : session.Consistent loaded where
  distinct := h.nodup_keys
  loaded_prefix := ⟨_, h.entries.symm⟩
  place := by
    intro key slot
    rw [h.get?_eq_some_iff, h.bytesBefore_eq hsize]
  aligned := by
    intro ordinal
    rw [info, h.lookup, Lookup.snapshot_layout, Lookup.getElem?_places, h.bytesBefore_eq hsize,
      ← h.map_span_entries hsize, List.getElem?_map, Option.map_map, Nat.zero_add]
    rfl
  ends := by
    rw [h.lookup, Lookup.layout_endOffset, recordBytes_eq_extent, h.map_span_entries hsize]
  continues := by
    rw [h.endOffset_eq, h.pendingBytes_eq]
  pending := by
    have hlen := congrArg List.length h.entries
    rw [List.length_append, List.length_map] at hlen
    rw [h.pendingRecords_eq, size, Index.size, hlen, Nat.add_comm]
  found := fun key => by rw [h.find_fst]
  fetched := get_ne_none_iff session

/-- **Every session is consistent**: whatever it was opened on and whatever calls were made,
additions that failed included, as long as its records end below 2^64. -/
theorem consistent_of_reachable {fs : FileSystem} {path : String} {mode : Mode}
    {config : SessionConfig} {start session : Session} {added : List Record}
    (hopen : (Session.open fs path mode config).value = .ok start)
    (hreach : start.History added session)
    (hsize : session.baseSize + session.pendingBytes < UInt64.size) :
    session.Consistent start.index.entries :=
  (hreach.holds (holds_open hopen)).consistent (by omega)

/-- A record in a new store, after one that could not be written. -/
theorem consistent_new_store :
    (((ofNothing "a" .default .absent).lapse (some [9])).call .empty
      (.add [1] [2, 3] none)).2.Consistent [] :=
  @consistent_of_reachable .empty "a" .create .default _ _ _ rfl
    (.call _ _ (.lapse _ .start (by decide))) (by decide +kernel)

end Session
end ConstStore
