/-
# The index of a store

The index lists the records of a store in the order in which they were added.  An entry holds
the key, the size of the compressed record, the length of its value and perhaps metadata; where
the records stand is not written down but follows from their sizes.

* `Index.encode` and `Index.decode` are the compressed form that stands behind the header.
* `Lookup` finds the place of a record by its key.  `Lookup.build` computes it from an index, and
  `Lookup.insert` keeps it in step with a growing one.
-/
import ConstStore.Compression

namespace ConstStore

/-! ## 1. Entries -/

/-- What the index says about a record. -/
structure Entry where
  key : Bytes
  /-- The size of the compressed record. -/
  size : UInt64
  /-- The length of the value. -/
  length : UInt64
  metadata : Option Bytes
  deriving Repr, DecidableEq

def Codec.entry : Codec Entry :=
  (pair bytes (pair u64 (pair u64 (option bytes)))).map
    (fun (key, size, length, metadata) => ⟨key, size, length, metadata⟩)
    (fun e => (e.key, e.size, e.length, e.metadata))

def Codec.entries : Codec (List Entry) := list entry

/-! ## 2. The index -/

/-- The entries of a store, in the order in which the records were added. -/
structure Index where
  entries : List Entry
  deriving Repr, DecidableEq

namespace Index

def empty : Index := ⟨[]⟩

/-- The number of entries. -/
def size (index : Index) : Nat := index.entries.length

def isEmpty (index : Index) : Bool := index.entries.isEmpty

/-- The entry with this ordinal. -/
def get? (index : Index) (ordinal : Nat) : Option Entry := index.entries[ordinal]?

/-- The index with one more entry.  The ordinal of the new entry is the old size. -/
def push (index : Index) (entry : Entry) : Index := ⟨index.entries ++ [entry]⟩

/-- The size of the region that holds the records. -/
def recordBytes (index : Index) : Nat :=
  index.entries.foldr (fun entry size => entry.size.toNat + size) 0

/-- The entries as they are written before compression. -/
def serialize (index : Index) : Bytes := Codec.entries.encode index.entries

/-- The compressed index. -/
def encode (index : Index) (level : Zstd.Level) : Compressed := compress level index.serialize

/-- A failure to read an index, as a fault of the index. -/
def faultOf : Error → IndexError
  | .recordLength declared actual => .lengthMismatch actual declared
  | .decode cause => .undecodable cause
  | error => .other error.message

/-- Reads a compressed index whose content has the given length. -/
def decode (bytes : Bytes) (length : Nat) : Except Error Index :=
  match decompress bytes length with
  | .error error => .error (.index (faultOf error))
  | .ok content =>
    match Codec.entries.read content with
    | .error fault => .error (.index (.undecodable (.value fault)))
    | .ok entries => .ok ⟨entries⟩

end Index

/-! ## 3. The lookup -/

/-- The place of a record: its ordinal, and its offset in the store. -/
structure Slot where
  ordinal : Nat
  offset : Nat
  deriving Repr, DecidableEq

/-- The places of the records by key, and where the last record ends. -/
structure Lookup where
  slots : List (Bytes × Slot)
  endOffset : Nat
  deriving Repr, DecidableEq

namespace Lookup

/-- A lookup without records; the first one will stand at `start`. -/
def empty (start : Nat) : Lookup := ⟨[], start⟩

def get? (lookup : Lookup) (key : Bytes) : Option Slot := lookup.slots.lookup key

def contains (lookup : Lookup) (key : Bytes) : Bool := (lookup.get? key).isSome

def size (lookup : Lookup) : Nat := lookup.slots.length

def isEmpty (lookup : Lookup) : Bool := lookup.slots.isEmpty

/-- Enters a record of `size` bytes that has been added and is now the last one.  A key keeps one
place only. -/
def insert (lookup : Lookup) (key : Bytes) (slot : Slot) (size : Nat) : Lookup where
  slots :=
    if lookup.contains key then
      lookup.slots.map fun (k, s) => if k = key then (k, slot) else (k, s)
    else lookup.slots ++ [(key, slot)]
  endOffset := slot.offset + size

/-- The places in the order of the ordinals. -/
def snapshot (lookup : Lookup) : List (Bytes × Slot) :=
  lookup.slots.mergeSort fun a b => a.2.ordinal ≤ b.2.ordinal

/-- One round of building.  The place of the entry, where the sum of the sizes stands now, goes into
the table, and the entry's own size onto the sum.  A key that has a place already is refused, and so
is a sum that is no offset. -/
def append (lookup : Lookup) (ordinal : Nat) (entry : Entry) : Except Error Lookup :=
  if lookup.contains entry.key then .error (.index (.duplicateKey ordinal))
  else if UInt64.size ≤ lookup.endOffset + entry.size.toNat then .error (.index .offsetOverflow)
  else .ok {
    slots := lookup.slots ++ [(entry.key, ⟨ordinal, lookup.endOffset⟩)]
    endOffset := lookup.endOffset + entry.size.toNat }

/-- Enters the records of these entries, which have the ordinals from `ordinal` on. -/
def appendAll (lookup : Lookup) : (ordinal : Nat) → List Entry → Except Error Lookup
  | _, [] => .ok lookup
  | ordinal, entry :: entries =>
    match lookup.append ordinal entry with
    | .error error => .error error
    | .ok lookup => lookup.appendAll (ordinal + 1) entries

/-- The lookup of an index whose first record stands at `start`. -/
def build (index : Index) (start : Nat) : Except Error Lookup :=
  (empty start).appendAll 0 index.entries

end Lookup
end ConstStore
