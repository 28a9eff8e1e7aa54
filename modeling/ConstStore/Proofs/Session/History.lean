/-
# What a session has been through

Between opening and closing, calls are made on a session.  An addition may also fail in its last
step, when the record could not be written; then the session has its buffer, and the file of the
buffer may hold more bytes than the buffer counts.  `History` allows for such failures beside the
calls, so what is shown of every history is true of every session that a program can have.

* `lapse`: an addition whose record could not be written.
* `History`: the sessions that calls and such failures lead to, with the records added.
* `History.holds`: they hold these records behind those that were loaded.
-/
import ConstStore.Proofs.Session.Records

namespace ConstStore

/-! ## 1. Additions that fail -/

namespace PendingBuffer

variable {buffer : PendingBuffer} {added : List Record}

/-- The buffer after a record could not be appended.  Either compressing it has failed, or writing
it has, when these bytes were written already.  The buffer counts its records and their bytes only
when all has been written, and where the position of the file is it does not know. -/
def lapse (buffer : PendingBuffer) : (written : Option Bytes) → PendingBuffer
  | none => buffer
  | some written =>
    let (file, cursor) := buffer.cursor.writeAt buffer.content buffer.size written
    { buffer with content := file.take buffer.size, cursor := { cursor with known := none } }

theorem holds_lapse (h : buffer.Holds added) (written : Option Bytes) :
    (buffer.lapse written).Holds added := by
  cases written with
  | none => exact h
  | some written =>
    refine ⟨?_, h.records, nofun⟩
    rw [← h.content]
    simp only [lapse, size, Cursor.writeAt_fst h.cursor, List.take_left]

end PendingBuffer

namespace Session

variable {session start : Session} {loaded : List Entry} {before added : List Record}

/-- The session after an addition whose record could not be written.  Its buffer is there from now
on, if it was not before. -/
def lapse (session : Session) (written : Option Bytes) : Session :=
  { session with pending := some ((session.pending.getD .empty).lapse written) }

theorem holds_lapse (h : session.Holds loaded added) (hm : session.mode ≠ .read)
    (written : Option Bytes) : (session.lapse written).Holds loaded added := by
  have hbuffer : (session.pending.getD .empty).Holds added := by
    cases hp : session.pending with
    | some buffer => exact h.buffer buffer hp
    | none =>
      rw [h.noBuffer hp]
      exact PendingBuffer.holds_empty
  exact {
    entries := h.entries
    lookup := h.lookup
    distinct := h.distinct
    baseSize := h.baseSize
    base := h.base
    noBase := h.noBase
    nothing := h.nothing
    buffer := fun _ hb => Option.some.inj hb ▸ PendingBuffer.holds_lapse hbuffer written
    noBuffer := fun hn => absurd hn (by simp [lapse])
    readOnly := fun hr => absurd hr hm
    level := h.level }

/-! ## 2. Histories -/

/-- The sessions that calls and failing additions lead to, with the records that were added by the
way.  The files may be other ones at every call. -/
inductive History (start : Session) : List Record → Session → Prop
  | start : History start [] start
  | call {added : List Record} {session : Session} (fs : FileSystem) (c : Call) :
      History start added session →
      History start (added ++ additions session.config.level c (session.call fs c).1)
        (session.call fs c).2
  | lapse {added : List Record} {session : Session} (written : Option Bytes) :
      History start added session → session.mode ≠ .read →
      History start added (session.lapse written)

theorem History.holds (h : start.History added session) (hs : start.Holds loaded before) :
    session.Holds loaded (before ++ added) := by
  induction h with
  | start => rwa [List.append_nil]
  | call fs c _ ih =>
    rw [← List.append_assoc]
    exact holds_call ih fs c
  | lapse written _ hm ih => exact holds_lapse ih hm written

theorem History.sameSetup (h : start.History added session) : SameSetup start session := by
  induction h with
  | start => exact .refl _
  | call fs c _ ih => exact ih.trans (sameSetup_call _ fs c)
  | lapse written _ _ ih => exact ih.trans ⟨rfl, rfl, rfl, rfl, rfl⟩

end Session
end ConstStore
