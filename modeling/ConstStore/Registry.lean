/-
# Registries of sessions

A registry gives out small numbers for sessions, for callers that want handles instead of
sessions.  It has a fixed number of slots; a new session gets the lowest free one.
-/
import ConstStore.Session.Close

namespace ConstStore

/-- A table of sessions, each in the slot of its handle. -/
structure Registry where
  slots : List (Option Session)
  config : SessionConfig
  deriving Repr, DecidableEq

namespace Registry

/-- The number of slots where none is asked for. -/
def defaultSlots : Nat := 10

/-- A registry with free slots only. -/
def new (slots : Nat) (config : SessionConfig) : Registry := ⟨List.replicate slots none, config⟩

/-- The lowest free slot. -/
def free? (registry : Registry) : Option Nat := registry.slots.findIdx? (·.isNone)

/-- The registry with another content of one slot. -/
def put (registry : Registry) (handle : Nat) (session : Option Session) : Registry :=
  { registry with slots := registry.slots.set handle session }

/-- Opens a session in the lowest free slot. -/
def «open» (registry : Registry) (fs : FileSystem) (path : String) (mode : Mode) :
    Logged (Except Error (Nat × Registry)) :=
  match registry.free? with
  | none => return .error (.registryFull registry.slots.length)
  | some handle => do
    match ← Session.open fs path mode registry.config with
    | .error error => return .error error
    | .ok session => return .ok (handle, registry.put handle (some session))

/-- The session with a handle. -/
def get (registry : Registry) (handle : Nat) : Except Error Session :=
  match registry.slots[handle]? with
  | some (some session) => .ok session
  | _ => .error (.unknownHandle handle)

/-- What an operation on the session with a handle answers, and the registry afterwards. -/
def update {α : Type} (registry : Registry) (handle : Nat)
    (operation : Session → Except Error α × Session) : Except Error α × Registry :=
  match registry.get handle with
  | .error error => (.error error, registry)
  | .ok session =>
    let (answer, session) := operation session
    (answer, registry.put handle (some session))

def find (registry : Registry) (handle : Nat) (key : Bytes) : Except Error Bool × Registry :=
  registry.update handle fun session =>
    let (found, session) := session.find key
    (.ok found, session)

def fetch (registry : Registry) (fs : FileSystem) (handle : Nat) :
    Except Error Bytes × Registry :=
  registry.update handle (·.fetch fs)

/-- Positions the session with a handle at a key and reads the value there. -/
def getValue (registry : Registry) (fs : FileSystem) (handle : Nat) (key : Bytes) :
    Except Error (Option Bytes) × Registry :=
  registry.update handle (·.get fs key)

def add (registry : Registry) (fs : FileSystem) (handle : Nat) (key value : Bytes)
    (metadata : Option Bytes) : Logged (Except Error (Bool × Registry)) :=
  match registry.get handle with
  | .error error => return .error error
  | .ok session => do
    match ← session.add fs key value metadata with
    | .error error => return .error error
    | .ok (added, session) => return .ok (added, registry.put handle (some session))

def info (registry : Registry) (handle : Nat) : Except Error Info :=
  (registry.get handle).map (·.info)

/-- The answer to closing a session, the registry and the file system afterwards. -/
structure Closed where
  answer : Except Error Outcome
  registry : Registry
  files : FileSystem

/-- Closes a session.  Its slot is free afterwards, whatever the answer. -/
def close (registry : Registry) (fs : FileSystem) (handle : Nat) (force : Option Mode) :
    Logged Closed :=
  match registry.get handle with
  | .error error => return ⟨.error error, registry, fs⟩
  | .ok session => do
    let (answer, files) ← session.close fs force
    return ⟨answer, registry.put handle none, files⟩

/-- The number of sessions. -/
def openHandles (registry : Registry) : Nat := registry.slots.countP (·.isSome)

/-- Closes the sessions in these slots, the first of which is that of `handle`, and drops their
additions. -/
def discardAll (fs : FileSystem) : (handle : Nat) → List (Option Session) →
    Logged (List (Nat × Except Error Outcome) × FileSystem)
  | _, [] => return ([], fs)
  | handle, none :: slots => discardAll fs (handle + 1) slots
  | handle, some session :: slots => do
    let (answer, fs) ← session.close fs (some .read)
    let (answers, fs) ← discardAll fs (handle + 1) slots
    return ((handle, answer) :: answers, fs)

/-- Closes all sessions and drops their additions. -/
def shutdown (registry : Registry) (fs : FileSystem) :
    Logged (List (Nat × Except Error Outcome) × Registry × FileSystem) := do
  let (answers, fs) ← discardAll fs 0 registry.slots
  return (answers, new registry.slots.length registry.config, fs)

/-- Shuts a registry down that is no longer needed, and reports the sessions that fail to close. -/
def release (registry : Registry) (fs : FileSystem) : Logged FileSystem := do
  let (answers, _, fs) ← registry.shutdown fs
  let lines := answers.filterMap fun (handle, answer) =>
    match answer with
    | .ok _ => none
    | .error error => some ⟨.warn,
      "closing handle " ++ toString handle ++ " on shutdown failed: " ++ error.message⟩
  ⟨fs, lines⟩

end Registry
end ConstStore
