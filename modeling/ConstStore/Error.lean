/-
# Errors

Every operation of the library that can fail does so with an `Error`: a cause, with what is
needed to word it.  `Error.message` gives the wording.  Two families are told apart, files that
are not stores (`Error.isFormat`) and mistakes of the caller (`Error.isUsage`).

Each family of causes has a case `other` for a reason that the caller words.
-/
import ConstStore.Codec
import ConstStore.Text.Quoted
import ConstStore.Zstd.Fault

namespace ConstStore

/-! ## 1. Causes -/

/-- Why a file system refuses an operation, or an operation on an open file falls short. -/
inductive IoError where
  | notFound
  | alreadyExists
  | isDirectory
  | notDirectory
  | directoryNotEmpty
  | busy
  | nameTooLong
  | tooManyLinks
  /-- There is a NUL in a path. -/
  | nulInPath
  /-- There is no store to read at `path`. -/
  | missingStore (path : String)
  /-- A file ends before the bytes that are asked for. -/
  | shortRead
  /-- A file ends before the region that is to be copied. -/
  | shortCopy (copied length : Nat)
  | other (reason : String)
  deriving Repr, DecidableEq

/-- What keeps a file from being a store, or a record from being inside its file. -/
inductive FormatError where
  | truncatedHeader
  | fingerprintMismatch
  | truncatedIndex
  | sizeMismatch
  | outsideBase
  | outsidePending
  | other (reason : String)
  deriving Repr, DecidableEq

/-- Why bytes do not decode. -/
inductive DecodeError where
  /-- They are no stream of compressed frames. -/
  | frame (fault : Zstd.Fault)
  /-- They are no value of the expected type. -/
  | value (fault : Codec.Fault)
  | other (reason : String)
  deriving Repr, DecidableEq

/-- Why an index does not describe its store. -/
inductive IndexError where
  | duplicateKey (ordinal : Nat)
  | offsetOverflow
  /-- The index has another length than its header declares. -/
  | lengthMismatch (actual declared : Nat)
  | undecodable (cause : DecodeError)
  /-- A new store has another size than its index describes. -/
  | sizeMismatch (written described : Nat)
  | other (reason : String)
  deriving Repr, DecidableEq

/-- Why an operation fails. -/
inductive Error where
  | io (cause : IoError)
  | format (cause : FormatError)
  | index (cause : IndexError)
  | decode (cause : DecodeError)
  /-- A record has another length than its entry declares. -/
  | recordLength (expected actual : Nat)
  | noPriorFind
  | invalidMode (text : String)
  | registryFull (slots : Nat)
  | unknownHandle (handle : Nat)
  deriving Repr, DecidableEq

/-! ## 2. Wording -/

def IoError.message : IoError → String
  | notFound => "No such file or directory (os error 2)"
  | alreadyExists => "File exists (os error 17)"
  | isDirectory => "Is a directory (os error 21)"
  | notDirectory => "Not a directory (os error 20)"
  | directoryNotEmpty => "Directory not empty (os error 39)"
  | busy => "Device or resource busy (os error 16)"
  | nameTooLong => "File name too long (os error 36)"
  | tooManyLinks => "Too many levels of symbolic links (os error 40)"
  | nulInPath => "file name contained an unexpected NUL byte"
  | missingStore path => path ++ " does not exist"
  | shortRead => "failed to fill whole buffer"
  | shortCopy copied length =>
    "copied " ++ toString copied ++ " of " ++ toString length ++ " record bytes"
  | other reason => reason

def FormatError.message : FormatError → String
  | truncatedHeader => "truncated header"
  | fingerprintMismatch => "fingerprint mismatch"
  | truncatedIndex => "truncated index"
  | sizeMismatch => "index does not account for file size"
  | outsideBase => "record outside base file"
  | outsidePending => "record outside pending buffer"
  | other reason => reason

def DecodeError.message : DecodeError → String
  | frame fault => "decompress frame: " ++ fault.message
  | value fault => "deserialize: " ++ fault.message
  | other reason => reason

/-- The wording of a decode error where it is the whole error. -/
def DecodeError.fullMessage (cause : DecodeError) : String := "decode error: " ++ cause.message

def IndexError.message : IndexError → String
  | duplicateKey ordinal => "duplicate key at ordinal " ++ toString ordinal
  | offsetOverflow => "record offsets overflow"
  | lengthMismatch actual declared =>
    "index decompressed to " ++ toString actual ++ " bytes, header says " ++ toString declared
  | undecodable cause => cause.fullMessage
  | sizeMismatch written described =>
    "commit wrote " ++ toString written ++ " bytes, index describes " ++ toString described
  | other reason => reason

def Error.message : Error → String
  | io cause => "io error: " ++ cause.message
  | format cause => "format error: " ++ cause.message
  | index cause => "corrupt index: " ++ cause.message
  | decode cause => cause.fullMessage
  | recordLength expected actual =>
    "corrupt record: expected " ++ toString expected ++ " bytes, got " ++ toString actual
  | noPriorFind => "fetch without a prior successful find"
  | invalidMode text => "invalid open mode: " ++ Quoted.quote text
  | registryFull slots => "handle registry full (" ++ toString slots ++ " slots)"
  | unknownHandle handle => "unknown handle: " ++ toString handle

/-! ## 3. Families -/

/-- Whether a file was rejected as a store. -/
def Error.isFormat : Error → Bool
  | format _ | index _ => true
  | _ => false

/-- Whether the caller made a mistake. -/
def Error.isUsage : Error → Bool
  | noPriorFind | invalidMode _ | registryFull _ | unknownHandle _ => true
  | _ => false

/-- The error underneath, where there is one. -/
def Error.source? : Error → Option IoError
  | io cause => some cause
  | _ => none

/-! ## 4. Reading values -/

/-- The value at the front of a byte string.  Where there is none, the bytes do not decode. -/
def Codec.deserialize {α : Type} (codec : Codec α) (bytes : Bytes) : Except Error α :=
  (codec.read bytes).mapError fun fault => .decode (.value fault)

end ConstStore
