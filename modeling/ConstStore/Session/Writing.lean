/-
# Writing a new store

A commit writes a complete store to a temporary file.  It takes many steps, and each of them can
fail for reasons that no file tells of: the device may be full, worn out, or gone.  A `Device` says
which steps fail.  The new store is written front to back but for its header, whose place is held by
another one until the size of the index is known.

* `CommitStep`: the steps of a commit, in their order.
* `Device`: which of them fail, and why.
* `Session.write`: the bytes of the new store, written step by step.
-/
import ConstStore.Session.Basic

namespace ConstStore

/-! ## 1. Steps and devices -/

/-- The steps of a commit, in their order. -/
inductive CommitStep where
  | createTemporary
  | writePlaceholder
  | encodeIndex
  | writeIndex
  | seekStart
  | writeHeader
  | seekEnd
  | copyBase
  | copyPending
  | flush
  /-- The size of what has been written is asked for. -/
  | measure
  | syncFile
  /-- The permissions of what is at the path are asked for. -/
  | readPermissions
  | setPermissions
  /-- What is at the path is compared with the snapshot. -/
  | compare
  | rename
  | openDirectory
  | syncDirectory
  deriving Repr, DecidableEq

/-- What may be in the way of a commit, whatever the files hold: the steps that fail, each with its
cause. -/
structure Device where
  fault? : CommitStep → Option IoError

namespace Device

/-- A device at which no step fails. -/
def sound : Device := ⟨fun _ => none⟩

/-- Whether the device carries out a step. -/
def check (device : Device) (step : CommitStep) : Except IoError Unit :=
  match device.fault? step with
  | none => .ok ()
  | some cause => .error cause

/-- A step without which a commit cannot go on. -/
def demand (device : Device) (step : CommitStep) : Except Error Unit :=
  (device.check step).mapError .io

/-- Such a step, which is left out unless it is wanted. -/
def demandIf (device : Device) (wanted : Bool) (step : CommitStep) : Except Error Unit :=
  if wanted then device.demand step else .ok ()

end Device

/-! ## 2. Files that are written -/

/-- A file that is being written: what it holds, and where the next bytes go. -/
structure Output where
  content : Bytes
  file : OpenFile
  deriving Repr, DecidableEq

namespace Output

def empty : Output := ⟨[], ⟨0⟩⟩

def write (output : Output) (bytes : Bytes) : Output :=
  let (content, file) := output.file.write output.content bytes
  ⟨content, file⟩

def seekStart (output : Output) : Output := { output with file := ⟨0⟩ }

def seekEnd (output : Output) : Output := { output with file := ⟨output.content.length⟩ }

end Output

/-! ## 3. The new store -/

namespace Session

/-- The records of the base file, as they are. -/
def baseRegion (session : Session) (fs : FileSystem) : Except Error Bytes :=
  match session.base with
  | none => .ok []
  | some base => (base.copyRecords fs).1

/-- Writes the new store, which has to have the size that its index describes. -/
def write (session : Session) (fs : FileSystem) (pending : PendingBuffer) (device : Device) :
    Except Error Bytes := do
  device.demand .writePlaceholder
  let output := Output.empty.write Header.placeholder.encode
  device.demand .encodeIndex
  let index := session.index.encode session.config.level
  device.demand .writeIndex
  let output := output.write index.bytes
  device.demand .seekStart
  device.demand .writeHeader
  let header := Header.ofIndex (UInt64.ofNat index.size) (UInt64.ofNat index.length)
  let output := output.seekStart.write header.encode
  device.demand .seekEnd
  device.demandIf session.base.isSome .copyBase
  let region ← session.baseRegion fs
  let output := output.seekEnd.write region
  device.demand .copyPending
  let added ← pending.copyRecords.1
  let output := output.write added
  device.demand .flush
  device.demand .measure
  let described := Header.size + index.size + session.index.recordBytes
  Fallible.guard (.index (.sizeMismatch output.content.length described))
    (output.content.length = described)
  device.demandIf session.config.sync .syncFile
  return output.content

end Session
end ConstStore
