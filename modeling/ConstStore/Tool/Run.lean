/-
# The command line tool

`Tool.run` carries out a command on a file system: what it writes to standard output and standard
error, its exit code, and the file system afterwards.  A failure is a text with its causes; it is
written to standard error and the exit code is 1.  A misuse of the arguments has exit code 2.
-/
import ConstStore.Session.Close
import ConstStore.Text.Document
import ConstStore.Tool.Arguments

namespace ConstStore
namespace Tool

/-! ## 1. Failures -/

/-- What went wrong, and the causes, the nearest first. -/
structure Failure where
  text : String
  causes : List String
  deriving Repr, DecidableEq

namespace Failure

/-- An error as a failure of its own. -/
def ofError (error : Error) : Failure :=
  ⟨error.message, error.source?.toList.map (·.message)⟩

/-- A failure that an error is the cause of. -/
def causedBy (text : String) (error : Error) : Failure :=
  ⟨text, error.message :: error.source?.toList.map (·.message)⟩

/-- A text whose further lines are moved in as far as its first. -/
def indent (first further text : String) : String :=
  first ++ String.join (text.toList.map fun c =>
    if c = '\n' then "\n" ++ further else String.singleton c)

/-- The causes, numbered when there is more than one. -/
def renderCauses (causes : List String) : String :=
  match causes with
  | [] => ""
  | [cause] => "\n\nCaused by:\n" ++ indent "    " "    " cause
  | causes =>
    "\n\nCaused by:" ++ String.join (((List.range causes.length).zip causes).map
      fun (n, cause) => "\n" ++ indent ("    " ++ toString n ++ ": ") "       " cause)

/-- A failure as it is written to standard error. -/
def render (failure : Failure) : String :=
  "Error: " ++ failure.text ++ renderCauses failure.causes ++ "\n"

end Failure

/-! ## 2. Reports on a store -/

/-- A number at the right of a column. -/
def column (width : Nat) (text : String) : String :=
  String.ofList (List.replicate (width - text.length) ' ') ++ text

/-- One line of the table. -/
def row (ordinal offset size length key : String) : String :=
  column 8 ordinal ++ " " ++ column 12 offset ++ " " ++ column 10 size ++ " " ++ column 10 length
    ++ "  " ++ key ++ "\n"

/-- The header and the entries of a store as a table. -/
def table (store : String) (header : Header) (info : Info) : String :=
  store ++ ": " ++ toString info.entries.length ++ " records, index "
    ++ toString header.indexSize.toNat ++ " -> " ++ toString header.indexLength.toNat ++ " bytes\n"
    ++ row "ordinal" "offset" "zlen" "len" "key"
    ++ String.join ((info.entries.zip info.slots).map fun (entry, _, slot) =>
      row (toString slot.ordinal) (toString slot.offset) (toString entry.size.toNat)
        (toString entry.length.toNat) (Utf8.lossy entry.key))

/-- An entry with its place. -/
def entryDocument (entry : Entry) (slot : Slot) : Document :=
  .record [
    ("compressed_len", .number entry.size.toNat),
    ("key", .text (Utf8.lossy entry.key)),
    ("metadata", match entry.metadata with
      | some metadata => .text (Utf8.lossy metadata)
      | none => .null),
    ("offset", .number slot.offset),
    ("ordinal", .number slot.ordinal),
    ("uncompressed_len", .number entry.length.toNat)]

/-- The header and the entries of a store as a document. -/
def document (store : String) (header : Header) (info : Info) : Document :=
  .record [
    ("index_compressed_len", .number header.indexSize.toNat),
    ("index_len", .number header.indexLength.toNat),
    ("path", .text store),
    ("records", .list ((info.entries.zip info.slots).map fun (entry, _, slot) =>
      entryDocument entry slot))]

/-! ## 3. Commands -/

/-- Opens a store for a command. -/
def openStore (fs : FileSystem) (store : String) (mode : Mode) : Except Failure Session :=
  (Session.open fs store mode .default).value.mapError (.causedBy ("open " ++ store))

/-- What `info` writes. -/
def showInfo (fs : FileSystem) (store : String) (json : Bool) : Except Failure Bytes := do
  let session ← openStore fs store .read
  match session.header? with
  | none => throw ⟨store ++ " has no header", []⟩
  | some header =>
    let text :=
      if json then (document store header session.info).render ++ "\n"
      else table store header session.info
    return Utf8.bytes text

/-- What `keys` writes: each key and a newline. -/
def showKeys (fs : FileSystem) (store : String) : Except Failure Bytes := do
  let session ← openStore fs store .read
  return session.info.entries.flatMap fun entry => entry.key ++ [0x0a]

/-- What `get` writes: the value under a key. -/
def getValue (fs : FileSystem) (store key : String) : Except Failure Bytes := do
  let session ← openStore fs store .read
  match (session.get fs (Utf8.bytes key)).1 with
  | .error error => throw (.ofError error)
  | .ok (some value) => return value
  | .ok none => throw ⟨"key " ++ Quoted.quote key ++ " not found in " ++ store, []⟩

/-- The value that `put` adds: that of a file or what is read from standard input. -/
def inputValue (fs : FileSystem) (file : Option String) (input : Bytes) : Except Failure Bytes :=
  match file with
  | none => .ok input
  | some path =>
    (fs.load path).mapError fun cause => ⟨"read " ++ path, [cause.message]⟩

/-- Opens a store and adds a record, as `put` does. -/
def addRecord (fs : FileSystem) (store key : String) (value : Bytes) (metadata : Option String)
    (create : Bool) : Except Failure Session := do
  let session ← openStore fs store (if create then .create else .write)
  match (session.add fs (Utf8.bytes key) value (metadata.map Utf8.bytes)).value with
  | .error error => throw (.ofError error)
  | .ok (false, _) => throw ⟨"key " ++ Quoted.quote key ++ " already exists in " ++ store, []⟩
  | .ok (true, session) => return session

/-- What is wrong with an outcome of `put` other than `Committed`. -/
def checkOutcome (store : String) : Except Error Outcome → Except Failure Unit
  | .error error => throw (.ofError error)
  | .ok (.committed _) => return ()
  | .ok (.conflictLoss _) => throw ⟨store ++ " was replaced concurrently; nothing written", []⟩
  | .ok outcome => throw ⟨"unexpected close outcome " ++ outcome.name, []⟩

/-- Adds a record and publishes it. -/
def putValue (fs : FileSystem) (store key : String) (file metadata : Option String)
    (create : Bool) (input : Bytes) : Except Failure Unit × FileSystem :=
  match inputValue fs file input >>= (addRecord fs store key · metadata create) with
  | .error failure => (.error failure, fs)
  | .ok session =>
    let (outcome, fs) := (session.close fs none).value
    (checkOutcome store outcome, fs)

/-- Carries out a command: what it writes to standard output, and the file system afterwards. -/
def execute (fs : FileSystem) (input : Bytes) : Command → Except Failure Bytes × FileSystem
  | .info store json => (showInfo fs store json, fs)
  | .keys store => (showKeys fs store, fs)
  | .get store key => (getValue fs store key, fs)
  | .put store key file metadata create =>
    let (done, fs) := putValue fs store key file metadata create input
    (done.map fun () => [], fs)

/-! ## 4. Runs -/

/-- What a run of the tool leaves behind. -/
structure Result where
  code : UInt32
  output : Bytes
  errors : String
  files : FileSystem

/-- Runs the tool with these arguments and this standard input. -/
def run (fs : FileSystem) (arguments : List String) (input : Bytes) : Result :=
  match Request.parse arguments with
  | .help text => ⟨0, Utf8.bytes text, "", fs⟩
  | .misuse => ⟨2, [], toolHelp, fs⟩
  | .run command =>
    match execute fs input command with
    | (.ok output, fs) => ⟨0, output, "", fs⟩
    | (.error failure, fs) => ⟨1, [], failure.render, fs⟩

end Tool
end ConstStore
