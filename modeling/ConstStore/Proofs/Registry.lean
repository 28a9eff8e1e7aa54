/-
# A registry is a table of sessions

To its callers a registry is a bounded table: ids below the number of slots, some of them with an
open session.  A `Table` is just that, and it keeps count of the additions that each session has
accepted.  `Table.Serves` says what each request may answer and what it leaves, going by the table
alone.  Whatever the requests are, and whatever other programs do to the files between them, a
registry serves them as the table of the same slots does.

* `Table.Serves`: what one request answers and changes.
* `Registry.Shows`: how a registry is related to a table.
* `Registry.Shows.serve`: one request answers what the table says, and keeps the two related.
* `Registry.table_explains`: every sequence of requests is served as the table says.
-/
import ConstStore.Proofs.Format
import ConstStore.Proofs.Session.Publish
import ConstStore.Registry

namespace ConstStore

/-! ## 1. Requests -/

/-- What can be done with the session of a handle. -/
inductive Use where
  | get
  | find (key : Bytes)
  | fetch
  | getValue (key : Bytes)
  | add (key value : Bytes) (metadata : Option Bytes)
  | info

/-- What is answered when there is a session and it does not fail. -/
def Use.Answer : Use → Type
  | get => Session
  | find _ | add .. => Bool
  | fetch => Bytes
  | getValue _ => Option Bytes
  | info => Info

/-- The same on the session alone: the answer, and the session afterwards. -/
def Use.on (session : Session) (fs : FileSystem) :
    (u : Use) → Logged (Except Error u.Answer × Session)
  | get => return (.ok session, session)
  | find key => return (.ok (session.find key).1, (session.find key).2)
  | fetch => return session.fetch fs
  | getValue key => return session.get fs key
  | add key value metadata => do
    let answer ← session.add fs key value metadata
    return session.settle answer
  | info => return (.ok session.info, session)

/-- How many additions have been accepted, going by the answer. -/
def Use.accepted : (u : Use) → Except Error u.Answer → Nat
  | add .., .ok true => 1
  | get, _ | find _, _ | fetch, _ | getValue _, _ | add .., _ | info, _ => 0

/-- What a registry is asked for. -/
inductive Request where
  | open (path : String) (mode : Mode)
  | use (handle : Nat) (u : Use)
  | close (handle : Nat) (force : Option Mode)
  | shutdown

/-- What a request answers. -/
def Request.Answer : Request → Type
  | «open» .. => Except Error Nat
  | use _ u => Except Error u.Answer
  | close .. => Except Error Outcome
  | shutdown => List (Nat × Except Error Outcome)

namespace Registry

/-- Does something with the session of a handle. -/
def use (registry : Registry) (fs : FileSystem) (handle : Nat) :
    (u : Use) → Logged (Except Error u.Answer × Registry)
  | .get => return (registry.get handle, registry)
  | .find key => return registry.find handle key
  | .fetch => return registry.fetch fs handle
  | .getValue key => return registry.getValue fs handle key
  | .add key value metadata => do
    match ← registry.add fs handle key value metadata with
    | .error error => return (.error error, registry)
    | .ok (added, next) => return (.ok added, next)
  | .info => return (registry.info handle, registry)

/-- Serves a request: the answer, and the registry and the files afterwards. -/
def serve (registry : Registry) (fs : FileSystem) :
    (r : Request) → Logged (r.Answer × Registry × FileSystem)
  | .open path mode => do
    match ← registry.open fs path mode with
    | .error error => return (.error error, registry, fs)
    | .ok (handle, next) => return (.ok handle, next, fs)
  | .use handle u => do
    let (answer, next) ← registry.use fs handle u
    return (answer, next, fs)
  | .close handle force => do
    let closed ← registry.close fs handle force
    return (closed.answer, closed.registry, closed.files)
  | .shutdown => registry.shutdown fs

end Registry

/-- A request that was served on some files. -/
structure Service where
  files : FileSystem
  request : Request
  answer : request.Answer
  lines : List LogLine
  after : FileSystem

/-- Serves requests one after the other, each on the files that there are then. -/
def Registry.serveAll : Registry → List (FileSystem × Request) → List Service × Registry
  | registry, [] => ([], registry)
  | registry, (fs, r) :: requests =>
    let served := registry.serve fs r
    let (services, last) := served.value.2.1.serveAll requests
    (⟨fs, r, served.value.1, served.lines, served.value.2.2⟩ :: services, last)

/-! ## 2. Tables -/

/-- An open session, with the number of additions that it has accepted. -/
structure Seat where
  session : Session
  accepted : Nat

/-- A partial map from ids to open sessions, to be used for the ids below a bound. -/
structure Table where
  slots : Nat
  config : SessionConfig
  seat : Nat → Option Seat

namespace Table

/-- The table without sessions. -/
def new (slots : Nat) (config : SessionConfig) : Table := ⟨slots, config, fun _ => none⟩

/-- The table with another seat under an id, or none. -/
def put (t : Table) (id : Nat) (seat : Option Seat) : Table :=
  { t with seat := Function.update t.seat id seat }

@[simp] theorem put_seat_self (t : Table) (id : Nat) (seat : Option Seat) :
    (t.put id seat).seat id = seat := Function.update_self ..

theorem put_seat_of_ne (t : Table) {id other : Nat} (h : other ≠ id) (seat : Option Seat) :
    (t.put id seat).seat other = t.seat other := Function.update_of_ne h ..

/-- There is a session under this id. -/
def Live (t : Table) (id : Nat) : Prop := t.seat id ≠ none

/-- All ids are taken. -/
def Full (t : Table) : Prop := ∀ id < t.slots, t.Live id

/-- This is the lowest id without a session. -/
def LowestFree (t : Table) (id : Nat) : Prop :=
  id < t.slots ∧ ¬ t.Live id ∧ ∀ lower < id, t.Live lower

/-- The session under an id. -/
def session (t : Table) (id : Nat) : Except Error Session :=
  match t.seat id with
  | some seat => .ok seat.session
  | none => .error (.unknownHandle id)

end Table

/-- How a session ends whose additions are dropped. -/
def Outcome.ofDropped (records : Nat) : Outcome :=
  if records = 0 then .noChanges else .discarded records

/-- What a request may answer and report, and the table and the files that it leaves. -/
inductive Table.Serves (t : Table) (fs : FileSystem) :
    (r : Request) → Logged (r.Answer × Table × FileSystem) → Prop
  /-- All ids are taken, and nothing is looked at. -/
  | full {path mode} : t.Full →
      Serves t fs (.open path mode) (pure (.error (.registryFull t.slots), t, fs))
  /-- No session can be opened, which is no mistake in the use of the registry. -/
  | refused {path mode e lines id} : t.LowestFree id →
      Session.open fs path mode t.config = ⟨.error e, lines⟩ → e.isUsage = false →
      Serves t fs (.open path mode) ⟨(.error e, t, fs), lines⟩
  /-- The new session gets the lowest free id. -/
  | opened {path mode session lines id} : t.LowestFree id →
      Session.open fs path mode t.config = ⟨.ok session, lines⟩ →
      Serves t fs (.open path mode) ⟨(.ok id, t.put id (some ⟨session, 0⟩), fs), lines⟩
  /-- The session of the id does what it would do alone; the other ones stay as they are. -/
  | used {id u seat answer next lines} : t.seat id = some seat →
      u.on seat.session fs = ⟨(answer, next), lines⟩ →
      Serves t fs (.use id u)
        ⟨(answer, t.put id (some ⟨next, seat.accepted + u.accepted answer⟩), fs), lines⟩
  | unknown {id u} : t.seat id = none →
      Serves t fs (.use id u) (pure (.error (.unknownHandle id), t, fs))
  /-- The session is closed as it would be alone, and the id is free whatever the answer. -/
  | closed {id force seat answer files lines} : t.seat id = some seat →
      seat.session.close fs force = ⟨(answer, files), lines⟩ →
      Serves t fs (.close id force) ⟨(answer, t.put id none, files), lines⟩
  | unknownClosed {id force} : t.seat id = none →
      Serves t fs (.close id force) (pure (.error (.unknownHandle id), t, fs))
  /-- The live ids are told in increasing order, with what their sessions have accepted. -/
  | shutdown {answers : List (Nat × Except Error Outcome)} {lines} :
      (answers.map Prod.fst).Pairwise (· < ·) →
      (∀ id (answer : Except Error Outcome), (id, answer) ∈ answers ↔
        ∃ seat, t.seat id = some seat ∧ answer = .ok (.ofDropped seat.accepted)) →
      Serves t fs .shutdown ⟨(answers, new t.slots t.config, fs), lines⟩

/-- Services that a table explains, one after the other, and the table that they leave. -/
inductive Table.Explains : Table → List Service → Table → Prop
  | nil {t : Table} : Explains t [] t
  | cons {t next last : Table} {s : Service} {services : List Service} :
      t.Serves s.files s.request ⟨(s.answer, next, s.after), s.lines⟩ →
      Explains next services last → Explains t (s :: services) last

theorem Table.Serves.slots_eq {t : Table} {fs : FileSystem} {r : Request}
    {reply : Logged (r.Answer × Table × FileSystem)} (h : t.Serves fs r reply) :
    reply.value.2.1.slots = t.slots := by
  cases h <;> rfl

/-- The number of slots stays the same. -/
theorem Table.Explains.slots_eq {t last : Table} {services : List Service}
    (h : t.Explains services last) : last.slots = t.slots := by
  induction h with
  | nil => rfl
  | cons hserves _ ih => exact ih.trans hserves.slots_eq

/-! ## 3. Sessions under handles -/

/-- What is wrong with a file is no mistake of the caller. -/
theorem Error.isUsage_of_isFormat {e : Error} (h : e.isFormat = true) : e.isUsage = false := by
  cases e with
  | format _ | index _ => rfl
  | _ => exact absurd h (by simp [isFormat])

theorem BaseFile.isUsage_of_open {fs : FileSystem} {path : String} {e : Error}
    (h : (BaseFile.open fs path).value = .error e) : e.isUsage = false := by
  unfold BaseFile.open at h
  split at h
  · exact absurd h (by simp)
  · exact Except.error.inj h ▸ rfl
  · split at h
    · exact Except.error.inj h ▸ rfl
    · split at h
      · rename_i hparse
        exact Error.isUsage_of_isFormat (Contents.isFormat_of_parse (Except.error.inj h ▸ hparse))
      · exact absurd h (by simp)

theorem Snapshot.isUsage_of_take {fs : FileSystem} {path : String} {e : Error}
    (h : take fs path = .error e) : e.isUsage = false := by
  unfold take at h
  split at h
  · exact absurd h (by simp)
  · exact absurd h (by simp)
  · exact Except.error.inj h ▸ rfl

namespace Session

/-- The session has accepted this number of additions. -/
def Accepted (session : Session) (records : Nat) : Prop :=
  ∃ loaded added, session.Holds loaded added ∧ added.length = records

variable {session : Session} {fs : FileSystem} {path : String} {mode : Mode}
  {config : SessionConfig} {records : Nat}

theorem Accepted.pendingRecords_eq (h : session.Accepted records) :
    session.pendingRecords = records := by
  obtain ⟨loaded, added, h, rfl⟩ := h
  exact h.pendingRecords_eq

theorem accepted_open (h : (Session.open fs path mode config).value = .ok session) :
    session.Accepted 0 := ⟨_, _, holds_open h, rfl⟩

/-- **Where no session can be opened**, the files are the reason. -/
theorem isUsage_of_open {e : Error} (h : (Session.open fs path mode config).value = .error e) :
    e.isUsage = false := by
  rw [open_value] at h
  rcases Fallible.bind_eq_error.mp h with h | ⟨opened, -, h⟩
  · split at h
    · exact absurd h (by simp)
    · exact BaseFile.isUsage_of_open h
  · cases opened with
    | some opened => exact absurd h (by simp [start])
    | none =>
      rw [start] at h
      split at h
      · exact Except.error.inj h ▸ rfl
      · exact Snapshot.isUsage_of_take (Fallible.map_eq_error.mp h)

/-- The count goes by the answers. -/
theorem Accepted.on (h : session.Accepted records) (fs : FileSystem) (u : Use) :
    (u.on session fs).value.2.Accepted (records + u.accepted (u.on session fs).value.1) := by
  obtain ⟨loaded, added, h, rfl⟩ := h
  cases u with
  | get | info => exact ⟨loaded, added, h, rfl⟩
  | find key => exact ⟨loaded, added, holds_find h key, rfl⟩
  | fetch => exact ⟨loaded, added, holds_fetch h fs, rfl⟩
  | getValue key => exact ⟨loaded, added, holds_get h fs key, rfl⟩
  | add key value metadata =>
    have hadd := holds_add h fs key value metadata
    simp only [Use.on, Logged.value_bind, Logged.value_pure]
    generalize session.settle (session.add fs key value metadata).value = answer at hadd
    refine ⟨loaded, _, hadd, ?_⟩
    obtain ⟨_ | _ | _, next⟩ := answer <;> simp [accepted, Use.accepted]

/-- **A session that is closed by force for reading** drops what it has accepted, and leaves the
files. -/
theorem Accepted.close (h : session.Accepted records) (fs : FileSystem) :
    (session.close fs (some .read)).value = (.ok (.ofDropped records), fs) := by
  obtain ⟨loaded, added, h, rfl⟩ := h
  cases added with
  | nil => exact close_of_nothing h fs _
  | cons r added => exact close_of_read h (by simp) fs

end Session

/-! ## 4. Slots -/

namespace Registry

variable {registry : Registry} {t : Table} {fs : FileSystem} {id : Nat}

/-- The registry has the sessions of the table, each with the additions that are counted there. -/
structure Shows (registry : Registry) (t : Table) : Prop where
  slots : registry.slots.length = t.slots
  config : registry.config = t.config
  seats : ∀ id, registry.slots[id]?.join = (t.seat id).map Seat.session
  accepted : ∀ id seat, t.seat id = some seat → seat.session.Accepted seat.accepted

theorem shows_new (slots : Nat) (config : SessionConfig) :
    (new slots config).Shows (.new slots config) where
  slots := List.length_replicate
  config := rfl
  seats := by
    intro id
    rw [new, List.getElem?_replicate]
    split <;> rfl
  accepted := fun _ _ h => absurd h (by simp [Table.new])

namespace Shows

/-- Only ids of slots are live. -/
theorem lt_of_live (h : registry.Shows t) (hlive : t.Live id) : id < t.slots := by
  rw [← h.slots]
  by_contra hout
  have hseat := h.seats id
  rw [List.getElem?_eq_none (Nat.le_of_not_lt hout), Option.join_none, eq_comm,
    Option.map_eq_none_iff] at hseat
  exact hlive hseat

/-- A slot is free when its id is not live. -/
theorem isNone_iff (h : registry.Shows t) (hid : id < registry.slots.length) :
    registry.slots[id].isNone = true ↔ ¬ t.Live id := by
  have hseat := h.seats id
  rw [List.getElem?_eq_getElem hid, Option.join_some] at hseat
  rw [hseat, Option.isNone_map, Option.isNone_iff_eq_none, Table.Live, not_not]

/-- There is no free slot when all ids are taken. -/
theorem free?_eq_none_iff (h : registry.Shows t) : registry.free? = none ↔ t.Full := by
  rw [free?, List.findIdx?_eq_none_iff, List.forall_mem_iff_forall_getElem, Table.Full, ← h.slots]
  refine forall₂_congr fun id hid => ?_
  rw [← Bool.not_eq_true, h.isNone_iff hid, not_not]

/-- The slot that is taken next is that of the lowest free id. -/
theorem free?_eq_some_iff (h : registry.Shows t) :
    registry.free? = some id ↔ t.LowestFree id := by
  rw [free?, List.findIdx?_eq_some_iff_getElem, Table.LowestFree, ← h.slots]
  constructor
  · rintro ⟨hid, hnone, hlower⟩
    refine ⟨hid, (h.isNone_iff hid).mp hnone, fun lower hlt => ?_⟩
    exact not_not.mp (mt (h.isNone_iff (hlt.trans hid)).mpr (hlower lower hlt))
  · rintro ⟨hid, hnone, hlower⟩
    refine ⟨hid, (h.isNone_iff hid).mpr hnone, fun lower hlt hn => ?_⟩
    exact (h.isNone_iff (hlt.trans hid)).mp hn (hlower lower hlt)

theorem slot_eq_some_iff (h : registry.Shows t) {session : Session} :
    registry.slots[id]? = some (some session) ↔ ∃ seat, t.seat id = some seat ∧
      seat.session = session := by
  rw [← Option.join_eq_some_iff, h.seats, Option.map_eq_some_iff]

/-- Looking a handle up. -/
theorem get_eq (h : registry.Shows t) (id : Nat) : registry.get id = t.session id := by
  have hseat := h.seats id
  rw [get, Table.session]
  cases hs : t.seat id with
  | none =>
    rw [hs, Option.map_none, Option.join_eq_none_iff] at hseat
    rcases hseat with hslot | hslot <;> rw [hslot]
  | some seat =>
    rw [hs, Option.map_some, Option.join_eq_some_iff] at hseat
    rw [hseat]

/-- Another session in a slot, or none. -/
theorem put (h : registry.Shows t) (hid : id < t.slots) (seat : Option Seat)
    (hseat : ∀ s, seat = some s → s.session.Accepted s.accepted) :
    (registry.put id (seat.map Seat.session)).Shows (t.put id seat) where
  slots := List.length_set.trans h.slots
  config := h.config
  seats := by
    intro other
    by_cases he : other = id
    · rw [he, Registry.put, List.getElem?_set_self (h.slots ▸ hid), Table.put_seat_self]
      rfl
    · rw [Registry.put, List.getElem?_set_ne (Ne.symm he), t.put_seat_of_ne he]
      exact h.seats other
  accepted := by
    intro other s hs
    by_cases he : other = id
    · rw [he, Table.put_seat_self] at hs
      exact hseat s hs
    · rw [t.put_seat_of_ne he] at hs
      exact h.accepted other s hs

theorem put_some (h : registry.Shows t) (hid : id < t.slots) {session : Session} {records : Nat}
    (hs : session.Accepted records) :
    (registry.put id (some session)).Shows (t.put id (some ⟨session, records⟩)) :=
  h.put hid (some ⟨session, records⟩) fun _ he => Option.some.inj he ▸ hs

theorem put_none (h : registry.Shows t) (hid : id < t.slots) :
    (registry.put id none).Shows (t.put id none) :=
  h.put hid none fun _ he => absurd he (by simp)

end Shows

/-! ## 5. Serving requests -/

/-- What an operation does that is not refused. -/
theorem update_of_get {α : Type} {session : Session} (h : registry.get id = .ok session)
    (operation : Session → Except Error α × Session) :
    registry.update id operation
      = ((operation session).1, registry.put id (some (operation session).2)) := by
  rw [update, h]

/-- Only looking at a session leaves the registry. -/
theorem put_of_get {session : Session} (h : registry.get id = .ok session) :
    registry.put id (some session) = registry := by
  rw [get] at h
  split at h
  · rename_i slot hslot
    obtain ⟨hid, hslot⟩ := List.getElem?_eq_some_iff.mp hslot
    rw [put, ← Except.ok.inj h, ← hslot, List.set_getElem_self]
  · exact absurd h (by simp)

/-- **The session of a handle does what it would do alone.** -/
theorem use_of_get {session : Session} (h : registry.get id = .ok session) (fs : FileSystem)
    (u : Use) : registry.use fs id u
      = ⟨((u.on session fs).value.1, registry.put id (some (u.on session fs).value.2)),
        (u.on session fs).lines⟩ := by
  cases u with
  | get | info =>
    -- the registry is not written, which is to put the session back that was there
    simp only [use, Use.on, Logged.value_pure, put_of_get h, info, h]
    rfl
  | find key | fetch | getValue key =>
    simp only [use, find, fetch, getValue, update_of_get h]
    rfl
  | add key value metadata =>
    refine Logged.ext ?_ ?_
    · simp only [use, add, Use.on, h, Logged.value_bind]
      cases (session.add fs key value metadata).value with
      | error e =>
        simp only [Logged.value_pure, Session.settle, put_of_get h]
        rfl
      | ok answer => rfl
    · simp only [use, add, Use.on, h, Logged.lines_bind, Logged.value_bind]
      cases (session.add fs key value metadata).value with
      | error e => simp
      | ok answer => simp

/-- A handle without a session. -/
theorem use_of_unknown {e : Error} (h : registry.get id = .error e) (fs : FileSystem) (u : Use) :
    registry.use fs id u = pure (.error e, registry) := by
  cases u with
  | get =>
    rw [use, h]
    rfl
  | info =>
    simp only [use, info, h]
    rfl
  | find key | fetch | getValue key =>
    simp only [use, find, fetch, getValue, update, h]
    rfl
  | add key value metadata =>
    simp only [use, add, h]
    rfl

/-- Opening a session where there is a free slot. -/
theorem serve_open_of_free (h : registry.free? = some id) (fs : FileSystem) (path : String)
    (mode : Mode) : registry.serve fs (.open path mode)
      = ⟨match (Session.open fs path mode registry.config).value with
          | .error e => (.error e, registry, fs)
          | .ok session => (.ok id, registry.put id (some session), fs),
        (Session.open fs path mode registry.config).lines⟩ := by
  refine Logged.ext ?_ ?_
  · simp only [serve, «open», h, Logged.value_bind]
    cases (Session.open fs path mode registry.config).value <;> rfl
  · simp only [serve, «open», h, Logged.lines_bind, Logged.value_bind]
    cases (Session.open fs path mode registry.config).value <;> simp

/-- Where there is none, nothing is looked at. -/
theorem open_of_full (h : registry.free? = none) (fs : FileSystem) (path : String) (mode : Mode) :
    registry.open fs path mode = pure (.error (.registryFull registry.slots.length)) := by
  rw [«open», h]

theorem serve_use (registry : Registry) (fs : FileSystem) (id : Nat) (u : Use) :
    registry.serve fs (.use id u)
      = ⟨((registry.use fs id u).value.1, (registry.use fs id u).value.2, fs),
        (registry.use fs id u).lines⟩ :=
  Logged.ext rfl (List.append_nil _)

theorem serve_close_of_get {session : Session} (h : registry.get id = .ok session)
    (fs : FileSystem) (force : Option Mode) :
    registry.serve fs (.close id force)
      = ⟨((session.close fs force).value.1, registry.put id none,
          (session.close fs force).value.2), (session.close fs force).lines⟩ := by
  refine Logged.ext ?_ ?_
  · simp [serve, close, h]
  · simp [serve, close, h]

/-- What shutting down answers for the session in a slot. -/
def dropped (slot : Option Session × Nat) : Option (Nat × Except Error Outcome) :=
  slot.1.map fun session => (slot.2, .ok (.ofDropped session.pendingRecords))

/-- Shutting down goes through the slots one by one. -/
theorem discardAll_value (fs : FileSystem) {slots : List (Option Session)}
    (h : ∀ session, some session ∈ slots → ∃ records, session.Accepted records) (id : Nat) :
    (discardAll fs id slots).value = ((slots.zipIdx id).filterMap dropped, fs) := by
  induction slots generalizing id with
  | nil => rfl
  | cons slot slots ih =>
    have ih := ih (fun session hs => h session (List.mem_cons_of_mem _ hs)) (id + 1)
    rw [List.zipIdx_cons]
    cases slot with
    | none =>
      rw [discardAll, ih]
      rfl
    | some session =>
      obtain ⟨records, haccepted⟩ := h session List.mem_cons_self
      simp only [discardAll, Logged.value_bind, Logged.value_pure, haccepted.close fs, ih]
      rw [List.filterMap_cons_some (b := (id, .ok (.ofDropped records)))]
      rw [dropped, Option.map_some, haccepted.pendingRecords_eq]

/-- **Shutting down** tells the handles in increasing order. -/
theorem pairwise_dropped (slots : List (Option Session)) :
    ((slots.zipIdx.filterMap dropped).map Prod.fst).Pairwise (· < ·) := by
  have hlt : slots.zipIdx.Pairwise fun slot slot' => slot.2 < slot'.2 := by
    rw [← List.pairwise_map, List.zipIdx_map_snd]
    exact List.pairwise_lt_range'
  refine List.pairwise_map.mpr (List.pairwise_filterMap.mpr (hlt.imp ?_))
  intro slot slot' h answer ha answer' ha'
  obtain ⟨session, -, rfl⟩ := Option.map_eq_some_iff.mp ha
  obtain ⟨session', -, rfl⟩ := Option.map_eq_some_iff.mp ha'
  exact h

theorem mem_dropped {slots : List (Option Session)} {id : Nat} {answer : Except Error Outcome} :
    (id, answer) ∈ slots.zipIdx.filterMap dropped ↔ ∃ session, slots[id]? = some (some session) ∧
      answer = .ok (.ofDropped session.pendingRecords) := by
  rw [List.mem_filterMap]
  constructor
  · rintro ⟨⟨slot, other⟩, hslot, hd⟩
    obtain ⟨session, rfl, he⟩ := Option.map_eq_some_iff.mp hd
    obtain ⟨rfl, rfl⟩ := Prod.mk.inj he
    exact ⟨session, List.mk_mem_zipIdx_iff_getElem?.mp hslot, rfl⟩
  · rintro ⟨session, hslot, rfl⟩
    exact ⟨(some session, id), List.mk_mem_zipIdx_iff_getElem?.mpr hslot, rfl⟩

/-- The registry serves a request as the table does, and then shows what the table is then. -/
def ServesAs (registry : Registry) (t : Table) (fs : FileSystem) (r : Request) : Prop :=
  ∃ next, t.Serves fs r ⟨((registry.serve fs r).value.1, next, (registry.serve fs r).value.2.2),
      (registry.serve fs r).lines⟩ ∧
    (registry.serve fs r).value.2.1.Shows next

namespace Shows

/-- A request to open a session. -/
theorem serve_open (h : registry.Shows t) (fs : FileSystem) (path : String) (mode : Mode) :
    registry.ServesAs t fs (.open path mode) := by
  unfold ServesAs
  cases hfree : registry.free? with
  | none =>
    have hserve : registry.serve fs (.open path mode)
        = pure (.error (.registryFull t.slots), registry, fs) := by
      rw [serve, open_of_full hfree, h.slots]
      rfl
    rw [hserve]
    exact ⟨t, .full (h.free?_eq_none_iff.mp hfree), h⟩
  | some id =>
    have hlowest := h.free?_eq_some_iff.mp hfree
    rw [serve_open_of_free hfree, h.config]
    cases hopen : (Session.open fs path mode t.config).value with
    | error e =>
      exact ⟨t, .refused hlowest (Logged.ext hopen rfl) (Session.isUsage_of_open hopen), h⟩
    | ok session =>
      exact ⟨_, .opened hlowest (Logged.ext hopen rfl),
        h.put_some hlowest.1 (Session.accepted_open hopen)⟩

/-- Only a full table makes opening tell that it is full. -/
theorem full_of_open (h : registry.Shows t) {path : String} {mode : Mode} {slots : Nat}
    (hopen : (registry.open fs path mode).value = .error (.registryFull slots)) : t.Full := by
  cases hfree : registry.free? with
  | none => exact h.free?_eq_none_iff.mp hfree
  | some id =>
    simp only [«open», hfree, Logged.value_bind] at hopen
    cases hs : (Session.open fs path mode registry.config).value with
    | error e =>
      rw [hs] at hopen
      have husage := Session.isUsage_of_open hs
      rw [Except.error.inj hopen] at husage
      exact absurd husage (by simp [Error.isUsage])
    | ok session =>
      rw [hs] at hopen
      exact absurd hopen (by simp)

/-- A request for the session of a handle. -/
theorem serve_use (h : registry.Shows t) (fs : FileSystem) (id : Nat) (u : Use) :
    registry.ServesAs t fs (.use id u) := by
  unfold ServesAs
  have hget := h.get_eq id
  rw [Table.session] at hget
  rw [Registry.serve_use]
  cases hseat : t.seat id with
  | none =>
    rw [hseat] at hget
    rw [use_of_unknown hget]
    exact ⟨t, .unknown hseat, h⟩
  | some seat =>
    rw [hseat] at hget
    rw [use_of_get hget]
    exact ⟨_, .used hseat rfl, h.put_some (h.lt_of_live (by simp [Table.Live, hseat]))
      ((h.accepted id seat hseat).on fs u)⟩

/-- A request to close a session. -/
theorem serve_close (h : registry.Shows t) (fs : FileSystem) (id : Nat) (force : Option Mode) :
    registry.ServesAs t fs (.close id force) := by
  unfold ServesAs
  have hget := h.get_eq id
  rw [Table.session] at hget
  cases hseat : t.seat id with
  | none =>
    rw [hseat] at hget
    have hserve : registry.serve fs (.close id force)
        = pure (.error (.unknownHandle id), registry, fs) := by
      rw [serve, close, hget]
      rfl
    rw [hserve]
    exact ⟨t, .unknownClosed hseat, h⟩
  | some seat =>
    rw [hseat] at hget
    rw [serve_close_of_get hget]
    exact ⟨_, .closed hseat rfl, h.put_none (h.lt_of_live (by simp [Table.Live, hseat]))⟩

/-- A request to shut down. -/
theorem serve_shutdown (h : registry.Shows t) (fs : FileSystem) :
    registry.ServesAs t fs .shutdown := by
  unfold ServesAs
  have haccepted : ∀ session, some session ∈ registry.slots →
      ∃ records, session.Accepted records := by
    intro session hs
    obtain ⟨id, hid⟩ := List.mem_iff_getElem?.mp hs
    obtain ⟨seat, hseat, rfl⟩ := h.slot_eq_some_iff.mp hid
    exact ⟨_, h.accepted id seat hseat⟩
  have hvalue : (registry.serve fs .shutdown).value
      = (registry.slots.zipIdx.filterMap dropped, new t.slots t.config, fs) := by
    simp only [serve, shutdown, Logged.value_bind, Logged.value_pure,
      discardAll_value fs haccepted 0, h.slots, h.config]
    rfl
  rw [hvalue]
  refine ⟨_, .shutdown (pairwise_dropped _) fun id answer => ?_, shows_new _ _⟩
  rw [mem_dropped]
  constructor
  · rintro ⟨session, hslot, rfl⟩
    obtain ⟨seat, hseat, rfl⟩ := h.slot_eq_some_iff.mp hslot
    exact ⟨seat, hseat, by rw [(h.accepted id seat hseat).pendingRecords_eq]⟩
  · rintro ⟨seat, hseat, rfl⟩
    exact ⟨seat.session, h.slot_eq_some_iff.mpr ⟨seat, hseat, rfl⟩,
      by rw [(h.accepted id seat hseat).pendingRecords_eq]⟩

/-- **A registry serves every request as its table does**, and goes on doing so. -/
theorem serve (h : registry.Shows t) (fs : FileSystem) (r : Request) :
    registry.ServesAs t fs r := by
  cases r with
  | «open» path mode => exact h.serve_open fs path mode
  | use id u => exact h.serve_use fs id u
  | close id force => exact h.serve_close fs id force
  | shutdown => exact h.serve_shutdown fs

/-- A sequence of requests is served one by one. -/
theorem serveAll (requests : List (FileSystem × Request)) :
    ∀ {registry : Registry} {t : Table}, registry.Shows t →
      ∃ last, t.Explains (registry.serveAll requests).1 last ∧
        (registry.serveAll requests).2.Shows last := by
  induction requests with
  | nil => exact fun h => ⟨_, .nil, h⟩
  | cons request requests ih =>
    intro registry t h
    obtain ⟨next, hserves, hnext⟩ : registry.ServesAs t request.1 request.2 := h.serve _ _
    obtain ⟨last, hexplains, hlast⟩ := ih hnext
    exact ⟨last, .cons hserves hexplains, hlast⟩

end Shows

/-- **A registry is a bounded partial map from ids to sessions.**  Whatever requests are made of a
new registry, and whatever becomes of the files between them, it serves them as a table does that
is empty at first.  The ids in use are always below the number of slots, and looking one up gives
the session of the table.  Opening tells that the registry is full exactly when all of them are in
use; then it answers so whatever the files and the path are, and reports nothing. -/
theorem table_explains (slots : Nat) (config : SessionConfig)
    (requests : List (FileSystem × Request)) :
    ∃ services registry t, (new slots config).serveAll requests = (services, registry) ∧
      Table.Explains (.new slots config) services t ∧
      (∀ id, t.Live id → id < slots) ∧
      (∀ id, registry.get id = t.session id) ∧
      (t.Full → ∀ fs path mode,
        registry.open fs path mode = pure (.error (.registryFull slots))) ∧
      ∀ fs path mode, (registry.open fs path mode).value = .error (.registryFull slots) →
        t.Full := by
  obtain ⟨t, hexplains, h⟩ := (shows_new slots config).serveAll requests
  have hslots : t.slots = slots := hexplains.slots_eq
  refine ⟨_, _, t, rfl, hexplains, fun id hlive => hslots ▸ h.lt_of_live hlive, h.get_eq, ?_, ?_⟩
  · intro hfull fs path mode
    rw [open_of_full (h.free?_eq_none_iff.mpr hfull), h.slots, hslots]
  · exact fun fs path mode hopen => h.full_of_open hopen

end Registry
end ConstStore
