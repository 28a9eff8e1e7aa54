/-
# Closing a session

Closing a session with additions publishes them.  A complete new store is written to a temporary
file beside the old one: header, index, the records of the base file as they are, and the pending
records as they are.  Then the temporary file takes the name of the store in one step, provided
that there still is at the path what there was when the session was opened.  Otherwise another
session has published first, and the temporary file is removed.

* `publish` writes the new store and puts it in place or tells why not.
* `commit` makes the temporary file around that and removes it unless it was published.
* `close` decides whether there is anything to publish.

The device that all this happens on is sound unless another one is given.
-/
import ConstStore.Session.Writing

namespace ConstStore

/-- How a session ended, with the number of records that it had added. -/
inductive Outcome where
  /-- Nothing was added. -/
  | noChanges
  /-- The additions were dropped because the caller wanted so. -/
  | discarded (records : Nat)
  /-- The additions were published. -/
  | committed (records : Nat)
  /-- Another session published first, and the additions were dropped. -/
  | conflictLoss (records : Nat)
  deriving Repr, DecidableEq

namespace Outcome

def isCommitted : Outcome → Bool
  | committed _ => true
  | _ => false

def isConflict : Outcome → Bool
  | conflictLoss _ => true
  | _ => false

/-- The number of records that were at stake. -/
def records? : Outcome → Option Nat
  | noChanges => none
  | discarded records | committed records | conflictLoss records => some records

/-- The name of an outcome. -/
def name : Outcome → String
  | noChanges => "NoChanges"
  | discarded _ => "Discarded"
  | committed _ => "Committed"
  | conflictLoss _ => "ConflictLoss"

end Outcome

namespace Session

/-! ## 1. Publishing -/

/-- The permissions for the new store: those of what it replaces, or those of the session. -/
def newPermissions (session : Session) (fs : FileSystem) : Except Error Nat :=
  match fs.permissions? session.path with
  | .ok permissions => .ok (permissions.getD (session.config.permissions % 0o10000))
  | .error cause => .error (.io cause)

/-- Writes the new store to the temporary file and moves it to the path.  `none` when there is
something else at the path than when the session was opened. -/
def publish (session : Session) (fs : FileSystem) (pending : PendingBuffer)
    (temporary : FileSystem.Location) (node : NodeId) (device : Device := .sound) :
    Except Error (Option (FileSystem × Nat)) := do
  let bytes ← session.write fs pending device
  device.demand .readPermissions
  let permissions ← session.newPermissions fs
  device.demand .setPermissions
  let written := fs.updateFile node fun file => { file with content := bytes, permissions }
  device.demand .compare
  if ← session.snapshot.unchanged written session.path then
    device.demand .rename
    match written.locate session.path >>= written.rename temporary with
    | .ok published => return some (published, bytes.length)
    | .error cause => throw (.io cause)
  else return none

/-- Makes the name of the new store lasting.  The store is published by then, so a failure is only
reported. -/
def syncDirectory (session : Session) (fs : FileSystem) (device : Device) : Logged Unit :=
  let directory := Path.directory session.path
  let synced : Except IoError Unit := do
    device.check .openDirectory
    let _ ← fs.follow directory
    device.check .syncDirectory
  match synced with
  | .ok () => return ()
  | .error cause =>
    Logged.report .warn <|
      "fsync of " ++ directory ++ " failed after commit: " ++ cause.message

/-- Makes the temporary file of a commit. -/
def createTemporary (session : Session) (fs : FileSystem) (device : Device) :
    Except Error (FileSystem × FileSystem.Location × NodeId) := do
  device.demand .createTemporary
  (fs.createTemporary (Path.directory session.path) session.config.temporaryPrefix
    session.path).mapError .io

/-- Publishes the additions in the buffer.  Unless they are published, the temporary file loses its
name again, and then nobody can reach what has been written to it. -/
def commit (session : Session) (fs : FileSystem) (pending : PendingBuffer)
    (device : Device := .sound) : Logged (Except Error Outcome × FileSystem) :=
  match session.createTemporary fs device with
  | .error error => return (.error error, fs)
  | .ok (fs, temporary, node) =>
    match session.publish fs pending temporary node device with
    | .error error =>
      return (.error error, fs.dropName temporary.directory temporary.name)
    | .ok none => do
      Logged.report .warn <|
        session.path ++ " changed since open; dropping " ++ toString pending.records
          ++ " pending records"
      return (.ok (.conflictLoss pending.records),
        fs.dropName temporary.directory temporary.name)
    | .ok (some (published, size)) => do
      if session.config.sync then session.syncDirectory published device
      Logged.report .info <|
        "committed " ++ toString pending.records ++ " new records to " ++ session.path ++ " ("
          ++ toString session.size ++ " total, " ++ toString size ++ " bytes)"
      return (.ok (.committed pending.records), published)

/-! ## 2. Closing -/

/-- Closes a session.  `force` set to reading drops the additions. -/
def close (session : Session) (fs : FileSystem) (force : Option Mode)
    (device : Device := .sound) : Logged (Except Error Outcome × FileSystem) :=
  match session.pending with
  | none => return (.ok .noChanges, fs)
  | some pending =>
    if !session.mode.isWritable || pending.records = 0 then return (.ok .noChanges, fs)
    else if force = some .read then do
      Logged.report .warn <|
        "discarding " ++ toString pending.records ++ " uncommitted records for " ++ session.path
      return (.ok (.discarded pending.records), fs)
    else session.commit fs pending device

end Session
end ConstStore
