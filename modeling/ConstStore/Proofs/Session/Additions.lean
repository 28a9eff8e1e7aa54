/-
# Only additions count

Looking for records and fetching them moves the cursors of a session and changes what it has found
last.  A refused addition changes nothing at all, and one that fails leaves at most an empty buffer,
or bytes behind the records of a buffer that is there.  Nothing of this is noticed when the session
is closed: that depends on what the session was opened with and on the records that it has added.

* `PendingBuffer.ignores`: what a failed addition leaves in the file of the buffer has no influence.
* `Holds.close_congr`: sessions that hold the same are closed in the same way.
* `only_additions_count`: two histories of a session with the same additions.
-/
import ConstStore.Proofs.Session.Commit
import ConstStore.Proofs.Session.History
import ConstStore.Proofs.Session.Values

namespace ConstStore

/-! ## 1. What a failed addition leaves -/

namespace PendingBuffer

variable {buffer : PendingBuffer} {added : List Record}

/-- What stands in the file of a buffer behind the bytes that count has no influence: it is not
read, it is not copied, and the next record is written over it. -/
structure Ignores (buffer : PendingBuffer) (junk : Bytes) : Prop where
  read : ∀ offset size, offset + size ≤ buffer.size →
    buffer.cursor.readAt (buffer.content ++ junk) offset size
      = buffer.cursor.readAt buffer.content offset size
  copy : buffer.cursor.copyRegion (buffer.content ++ junk) 0 buffer.size
    = buffer.cursor.copyRegion buffer.content 0 buffer.size
  write : ∀ bytes, buffer.cursor.writeAt (buffer.content ++ junk) buffer.size bytes
    = ((buffer.cursor.writeAt buffer.content buffer.size bytes).1 ++ junk.drop bytes.length,
      (buffer.cursor.writeAt buffer.content buffer.size bytes).2)

theorem ignores (h : buffer.cursor.Coherent) (junk : Bytes) : buffer.Ignores junk where
  read offset size hle := by
    simp only [Cursor.readAt, OpenFile.read_eq_slice, Cursor.position_seek h,
      Bytes.slice_append_left hle]
  copy := by
    have hle : 0 + buffer.size ≤ buffer.content.length := by rw [Nat.zero_add]; rfl
    simp only [Cursor.copyRegion, OpenFile.read_eq_slice, Cursor.position_seek h,
      Bytes.slice_append_left hle]
  write bytes := by
    simp only [size, Cursor.writeAt_fst h]
    simp [Cursor.writeAt, OpenFile.write, Cursor.position_seek h, List.drop_append]

end PendingBuffer

namespace Session

/-- The bytes of the records that a session has added. -/
def stored (session : Session) : Bytes :=
  match session.pending with
  | some buffer => buffer.content
  | none => []

variable {session next start s t : Session} {loaded : List Entry} {before added : List Record}

theorem Holds.stored_eq (h : session.Holds loaded added) :
    session.stored = Record.frames added := by
  rw [stored]
  split
  · rename_i buffer hb
    exact (h.buffer buffer hb).content
  · rename_i hb
    rw [h.noBuffer hb]
    rfl

/-! ## 2. Closing -/

/-- Sessions that were opened with the same and hold the same have the same index and lookup. -/
theorem Holds.index_congr (h : s.Holds loaded added) (h' : t.Holds loaded added) :
    t.index = s.index := by
  have hentries := h'.entries.trans h.entries.symm
  exact congrArg Index.mk hentries

theorem Holds.lookup_congr (h : s.Holds loaded added) (h' : t.Holds loaded added)
    (hs : SameSetup s t) : t.lookup = s.lookup := by
  rw [h'.lookup, h.lookup, dataStart_sameSetup hs]

/-- A copy of the records of a base file does not depend on what was read before. -/
theorem copyRecords_congr {base old : BaseFile} (hsetup : base.setup = old.setup)
    (h : base.cursor.Coherent) (h' : old.cursor.Coherent) (fs : FileSystem) :
    (base.copyRecords fs).1 = (old.copyRecords fs).1 := by
  have hnode : base.node = old.node := congrArg (·.1) hsetup
  have hheader : base.header = old.header := congrArg (·.2.1) hsetup
  have hsize : base.size = old.size := congrArg (·.2.2.size) hsetup
  simp only [BaseFile.copyRecords, hnode, hheader, hsize]
  cases fs.contentOf old.node with
  | error cause => rfl
  | ok content => simp only [Cursor.copyRegion_fst h, Cursor.copyRegion_fst h']

theorem Holds.baseRegion_congr (h : s.Holds loaded added) (h' : t.Holds loaded added)
    (hs : SameSetup s t) (fs : FileSystem) : t.baseRegion fs = s.baseRegion fs := by
  rcases hs.base_cases with ⟨hold, hnew⟩ | ⟨old, base, hold, hnew, hsetup⟩
  · simp only [baseRegion, hold, hnew]
  · simp only [baseRegion, hold, hnew]
    exact copyRecords_congr hsetup (h'.base base hnew) (h.base old hold) fs

/-- Buffers that hold the same are copied to the same bytes. -/
theorem copyPending_congr {old buffer : PendingBuffer} (h : old.Holds added)
    (h' : buffer.Holds added) : buffer.copyRecords.1 = old.copyRecords.1 := by
  have hcontent : buffer.content = old.content := h'.content.trans h.content.symm
  simp only [PendingBuffer.copyRecords, PendingBuffer.size, hcontent,
    Cursor.copyRegion_fst h.cursor, Cursor.copyRegion_fst h'.cursor]

section

variable {old buffer : PendingBuffer}

/-- **What is written depends on what is held.** -/
theorem Holds.write_congr (h : s.Holds loaded added) (h' : t.Holds loaded added)
    (hs : SameSetup s t) (hb : old.Holds added) (hb' : buffer.Holds added) (fs : FileSystem)
    (device : Device) : t.write fs buffer device = s.write fs old device := by
  have hbase : t.base.isSome = s.base.isSome := by
    rcases hs.base_cases with ⟨hold, hnew⟩ | ⟨_, _, hold, hnew, -⟩ <;> simp [hold, hnew]
  unfold write
  rw [h.index_congr h', hs.config, hbase, h.baseRegion_congr h' hs fs, copyPending_congr hb hb']

/-- So does committing it. -/
theorem Holds.commit_congr (h : s.Holds loaded added) (h' : t.Holds loaded added)
    (hs : SameSetup s t) (hb : old.Holds added) (hb' : buffer.Holds added) (fs : FileSystem)
    (device : Device) : t.commit fs buffer device = s.commit fs old device := by
  have hpublish : ∀ fs temporary node,
      t.publish fs buffer temporary node device = s.publish fs old temporary node device := by
    intro fs temporary node
    unfold publish newPermissions
    rw [h.write_congr h' hs hb hb' fs, hs.path, hs.config, hs.snapshot]
  have hrecords : buffer.records = old.records := hb'.records.trans hb.records.symm
  have hsize : t.size = s.size := congrArg Index.size (h.index_congr h')
  unfold commit createTemporary syncDirectory
  rw [hs.path, hs.config, hrecords, hsize]
  simp only [hpublish]

end

/-- **Sessions that hold the same are closed in the same way**, on every device, with the same answer,
the same files afterwards and the same lines in the log. -/
theorem Holds.close_congr (h : s.Holds loaded added) (h' : t.Holds loaded added)
    (hs : SameSetup s t) (fs : FileSystem) (force : Option Mode) (device : Device) :
    t.close fs force device = s.close fs force device := by
  by_cases hne : added = []
  · subst hne
    rw [close_eq_noChanges h, close_eq_noChanges h']
  · obtain ⟨old, hold, hb, hopen⟩ := exists_buffer h hne
    obtain ⟨buffer, hnew, hb', hopen'⟩ := exists_buffer h' hne
    have hrecords : buffer.records = old.records := hb'.records.trans hb.records.symm
    unfold close
    rw [hold, hnew]
    dsimp only
    rw [if_neg hopen, if_neg hopen', hrecords, hs.path, h.commit_congr h' hs hb hb' fs device]

/-! ## 3. Every session -/

/-- **An addition that is not made changes nothing.** -/
theorem settle_add_of_ne (session : Session) (fs : FileSystem) (key value : Bytes)
    (metadata : Option Bytes)
    (h : (session.settle (session.add fs key value metadata).value).1 ≠ .ok true) :
    (session.settle (session.add fs key value metadata).value).2 = session := by
  rcases add_cases session fs key value metadata with
    ⟨-, ha⟩ | ⟨-, ⟨cause, -, -, ha⟩ | ⟨buffer, -, ha⟩⟩
  · rw [ha]
    rfl
  · rw [ha]
    rfl
  · rw [ha] at h
    exact absurd rfl h

/-- **Only accepted additions matter to a commit.**  From a session, however it came about since it
was opened, there are two histories in which the same records were added; between the additions
anything may have been called, and other additions may have been refused or have failed.  Then the
two sessions have the same index and lookup, the same bytes are stored in their buffers, and as
many records; and closing them with the same files, on the same device, has the same outcome and
leads to the same files.

An addition that is answered with `false` or an error leaves the session that it was made on.  Where
it is the writing that has failed, index, lookup, the record found last and all that the buffer
counts are as before, and what has been written behind that has no influence. -/
theorem only_additions_count {opened : FileSystem} {path : String} {mode : Mode}
    {config : SessionConfig} {start session s t : Session} {before added : List Record}
    (hopen : (Session.open opened path mode config).value = .ok start)
    (hreach : start.History before session) (hs : session.History added s)
    (ht : session.History added t) :
    (t.index = s.index ∧ t.lookup = s.lookup ∧ t.stored = s.stored ∧
      t.pendingRecords = s.pendingRecords) ∧
    (∀ fs force device, t.close fs force device = s.close fs force device) ∧
    (∀ fs key value metadata, (s.call fs (.add key value metadata)).1 ≠ .ok true →
      (s.call fs (.add key value metadata)).2 = s) ∧
    (∀ fs (α : Type) (codec : Codec α) key value metadata,
      (s.call fs (.addValue codec key value metadata)).1 ≠ .ok true →
      (s.call fs (.addValue codec key value metadata)).2 = s) ∧
    (s.mode ≠ .read → ∀ written, (s.lapse written).index = s.index ∧
      (s.lapse written).lookup = s.lookup ∧ (s.lapse written).last = s.last ∧
      (s.lapse written).stored = s.stored ∧
      (s.lapse written).pendingRecords = s.pendingRecords ∧
      ∀ buffer junk, (s.lapse written).pending = some buffer → buffer.Ignores junk) := by
  have hsession := hreach.holds (holds_open hopen)
  have h := hs.holds hsession
  have h' := ht.holds hsession
  have hsetup : SameSetup s t := hs.sameSetup.symm.trans ht.sameSetup
  refine ⟨⟨h.index_congr h', h.lookup_congr h' hsetup, ?_, ?_⟩, h.close_congr h' hsetup,
    settle_add_of_ne s, fun fs α codec key value metadata => ?_,
    fun hm written => ⟨rfl, rfl, rfl, ?_⟩⟩
  · rw [h.stored_eq, h'.stored_eq]
  · rw [h.pendingRecords_eq, h'.pendingRecords_eq]
  · simp only [call, addValue_value]
    exact settle_add_of_ne s fs key (codec.encode value) metadata
  · have hlapse := holds_lapse h hm written
    rw [hlapse.stored_eq, h.stored_eq, hlapse.pendingRecords_eq, h.pendingRecords_eq]
    exact ⟨rfl, rfl, fun buffer junk hb =>
      PendingBuffer.ignores (hlapse.buffer buffer hb).cursor junk⟩

/-- One history adds a record.  The other one fails to write a record first, tries in vain to fetch
the damaged one, adds the same record, and is refused to add another under its key. -/
theorem only_additions_count_damaged : ∃ s t added, damagedSession.History added s ∧
    damagedSession.History added t ∧ added.length = 1 ∧ t.last ≠ s.last ∧
      t.stored = s.stored ∧ (s.call damagedFiles (.add [2] [4] none)).2 = s ∧
      ∀ fs force device, t.close fs force device = s.close fs force device := by
  have hopen : (Session.open damagedFiles "a" .write .default).value = .ok damagedSession := by
    decide +kernel
  have hs := History.call damagedFiles (.add [2] [3] none)
    (.start : damagedSession.History [] damagedSession)
  have hother := History.call damagedFiles (.add [2] [4] none) <|
    .call damagedFiles (.add [2] [3] none) <| .call damagedFiles (.get [1]) <|
      .lapse (some [9]) (.start : damagedSession.History [] damagedSession) (by decide +kernel)
  have hsame : ∀ {added added' : List Record} {u : Session}, added' = added →
      damagedSession.History added' u → damagedSession.History added u := fun h hu => h ▸ hu
  have ht := hsame (by decide +kernel : _ = [] ++ additions damagedSession.config.level
    (.add [2] [3] none) (damagedSession.call damagedFiles (.add [2] [3] none)).1) hother
  have hrefused : (settle (damagedSession.call damagedFiles (.add [2] [3] none)).2
      (add (damagedSession.call damagedFiles (.add [2] [3] none)).2 damagedFiles [2] [4]
        none).value).1 ≠ .ok true := by decide +kernel
  have hcount := only_additions_count hopen .start hs ht
  exact ⟨_, _, _, hs, ht, by decide +kernel, by decide +kernel, hcount.1.2.2.1,
    hcount.2.2.1 damagedFiles [2] [4] none hrefused, hcount.2.1⟩

end Session
end ConstStore
