/-
# Sessions

A session works on the store at one path: it looks up keys, fetches values, and adds records.
It sees the store as it was when the session was opened, and its own additions, which nobody else
sees until the session is closed.

* `Session.open` opens a session; only extending a store that does not exist turns into starting
  a new one.
* `find` positions a session at a key and `fetch` reads the value there; `get` does both.
* `add` appends a record unless the session is read-only or the key exists.
* `addValue` and `fetchValue` do the same with typed values.

A place that the lookup gives lies in the base file when it lies before the base file's end, and
in the pending buffer otherwise.

Only `fetch` and what is built on it read the file system, and no operation here changes it.
-/
import ConstStore.BaseFile
import ConstStore.PendingBuffer
import ConstStore.Session.Mode

namespace ConstStore

/-! ## 1. Sessions -/

/-- How a session adds and publishes records. -/
structure SessionConfig where
  /-- The level at which records and the index are compressed. -/
  level : Zstd.Level
  /-- How the name of a new store starts while it is being written. -/
  temporaryPrefix : String
  /-- The permissions of a store published where there was none. -/
  permissions : Nat
  /-- Whether a new store and its name are made lasting before the session ends. -/
  sync : Bool
  deriving Repr, DecidableEq

def SessionConfig.default : SessionConfig where
  level := defaultLevel
  temporaryPrefix := ".cachedb_tmp_"
  permissions := 0o644
  sync := true

instance : Inhabited SessionConfig := ⟨.default⟩

/-- Which file holds a record. -/
inductive Source where
  | base
  | pending
  deriving Repr, DecidableEq

/-- The record that the last `find` found. -/
structure LastLookup where
  key : Bytes
  ordinal : Nat
  source : Source
  /-- The offset of the record in its file. -/
  offset : Nat
  size : Nat
  length : Nat
  deriving Repr, DecidableEq

/-- A session on the store at a path. -/
structure Session where
  path : String
  /-- The mode in effect. -/
  mode : Mode
  config : SessionConfig
  /-- What there was at the path when the session was opened. -/
  snapshot : Snapshot
  base : Option BaseFile
  pending : Option PendingBuffer
  index : Index
  lookup : Lookup
  last : Option LastLookup
  deriving Repr, DecidableEq

/-- The entries and the places of all records of a session, in the order of their ordinals. -/
structure Info where
  entries : List Entry
  slots : List (Bytes × Slot)
  deriving Repr, DecidableEq

namespace Session

/-! ## 2. Opening -/

/-- A session on a store that is open. -/
def ofBase (path : String) (mode : Mode) (config : SessionConfig) (base : BaseFile)
    (contents : Contents) : Session where
  path := path
  mode := mode
  config := config
  snapshot := .present base.identity
  base := some base
  pending := none
  index := contents.index
  lookup := contents.lookup
  last := none

/-- A session that starts a new store. -/
def ofNothing (path : String) (config : SessionConfig) (snapshot : Snapshot) : Session where
  path := path
  mode := .create
  config := config
  snapshot := snapshot
  base := none
  pending := none
  index := .empty
  lookup := .empty 0
  last := none

/-- A session in this mode, where the base file has been tried to open if the mode needs it. -/
def start (fs : FileSystem) (path : String) (mode : Mode) (config : SessionConfig) :
    Option (BaseFile × Contents) → Except Error Session
  | some (base, contents) => .ok (ofBase path mode config base contents)
  | none =>
    if mode = .read then .error (.io (.missingStore path))
    else (Snapshot.take fs path).map (ofNothing path config)

/-- Opens a session on the store at a path. -/
def «open» (fs : FileSystem) (path : String) (mode : Mode) (config : SessionConfig) :
    Logged (Except Error Session) := do
  let opened ← if mode = .create then pure (.ok none) else BaseFile.open fs path
  match opened >>= start fs path mode config with
  | .error error => return .error error
  | .ok session =>
    Logged.report .debug <|
      "opened " ++ path ++ " mode=" ++ session.mode.letter ++ " records="
        ++ toString session.index.size
    return .ok session

/-! ## 3. Looking -/

/-- The header of the base file. -/
def header? (session : Session) : Option Header := session.base.map (·.header)

/-- Where the base file ends: the places of pending records start there. -/
def baseSize (session : Session) : Nat :=
  match session.base with
  | some base => base.size
  | none => 0

/-- The number of records. -/
def size (session : Session) : Nat := session.index.size

def isEmpty (session : Session) : Bool := session.index.isEmpty

/-- The number of records added. -/
def pendingRecords (session : Session) : Nat :=
  match session.pending with
  | some pending => pending.records
  | none => 0

def hasPending (session : Session) : Bool := 0 < session.pendingRecords

def contains (session : Session) (key : Bytes) : Bool := session.lookup.contains key

/-- The record with a key. -/
def locate? (session : Session) (key : Bytes) : Option LastLookup := do
  let slot ← session.lookup.get? key
  let entry ← session.index.get? slot.ordinal
  let (source, offset) :=
    if slot.offset < session.baseSize then (Source.base, slot.offset)
    else (Source.pending, slot.offset - session.baseSize)
  return ⟨key, slot.ordinal, source, offset, entry.size.toNat, entry.length.toNat⟩

/-- Positions a session at a key.  A miss forgets the last record found. -/
def find (session : Session) (key : Bytes) : Bool × Session :=
  let last := session.locate? key
  (last.isSome, { session with last })

/-- The metadata of the record found last. -/
def metadata? (session : Session) : Option Bytes := do
  let last ← session.last
  let entry ← session.index.get? last.ordinal
  entry.metadata

def info (session : Session) : Info := ⟨session.index.entries, session.lookup.snapshot⟩

/-- A session in one line. -/
def describe (session : Session) : String :=
  "Session \x7b path: " ++ Quoted.quote session.path ++ ", mode: " ++ session.mode.name
    ++ ", records: " ++ toString session.size
    ++ ", pending: " ++ toString session.pendingRecords ++ " \x7d"

/-! ## 4. Fetching -/

/-- The value of the record found last. -/
def fetch (session : Session) (fs : FileSystem) : Except Error Bytes × Session :=
  match session.last with
  | none => (.error .noPriorFind, session)
  | some last =>
    match last.source with
    | .base =>
      match session.base with
      | none => (.error (.format .outsideBase), session)
      | some base =>
        let (value, base) := base.readRecord fs last.offset last.size last.length
        (value, { session with base := some base })
    | .pending =>
      match session.pending with
      | none => (.error (.format .outsidePending), session)
      | some pending =>
        let (value, pending) := pending.readRecord last.offset last.size last.length
        (value, { session with pending := some pending })

/-- The value under a key; `none` when there is no such key. -/
def get (session : Session) (fs : FileSystem) (key : Bytes) :
    Except Error (Option Bytes) × Session :=
  match session.find key with
  | (false, session) => (.ok none, session)
  | (true, session) =>
    let (value, session) := session.fetch fs
    (value.map some, session)

/-! ## 5. Adding -/

/-- The session with one more record in its buffer. -/
def append (session : Session) (pending : PendingBuffer) (key value : Bytes)
    (metadata : Option Bytes) : Session :=
  let (appended, pending) := pending.append session.config.level value
  let entry : Entry :=
    ⟨key, UInt64.ofNat appended.size, UInt64.ofNat appended.length, metadata⟩
  let slot : Slot := ⟨session.index.size, session.baseSize + appended.offset⟩
  { session with
    pending := some pending
    index := session.index.push entry
    lookup := session.lookup.insert key slot appended.size }

/-- Adds a record.  The answer is `false`, and the session as before, when it is read-only or the
key exists. -/
def add (session : Session) (fs : FileSystem) (key value : Bytes) (metadata : Option Bytes) :
    Logged (Except Error (Bool × Session)) := do
  if !session.mode.isWritable then
    Logged.report .debug ("refusing add to read-only " ++ session.path)
    return .ok (false, session)
  else if session.contains key then
    Logged.report .debug ("refusing duplicate key in " ++ session.path)
    return .ok (false, session)
  else
    let pending ← match session.pending with
      | some pending => pure (.ok pending)
      | none => PendingBuffer.create fs (Path.directory session.path)
    match pending with
    | .error error => return .error error
    | .ok pending => return .ok (true, session.append pending key value metadata)

/-! ## 6. Typed values -/

variable {α : Type}

/-- Adds a typed value.  A refusal is not reported. -/
def addValue (session : Session) (fs : FileSystem) (codec : Codec α) (key : Bytes) (value : α)
    (metadata : Option Bytes) : Logged (Except Error (Bool × Session)) :=
  if !session.mode.isWritable || session.contains key then return .ok (false, session)
  else session.add fs key (codec.encode value) metadata

/-- The typed value of the record found last. -/
def fetchValue (session : Session) (fs : FileSystem) (codec : Codec α) :
    Except Error α × Session :=
  let (bytes, session) := session.fetch fs
  let value := match bytes with
    | .error error => .error error
    | .ok bytes => codec.deserialize bytes
  (value, session)

end Session
end ConstStore
