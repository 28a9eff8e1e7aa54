/-
# Codecs

A codec writes values as byte strings and reads them back from the front of a byte string.  The
format is fixed: numbers are little-endian with the width of their type, a truth value or the
presence of an optional value is one byte, and text, byte strings and lists start with their
length as a 64-bit number.  Reading returns what follows the value, and the first fault in
reading order is the one reported.

A codec is meant to read exactly what it writes.  `Codec.Exact` says so: reading a byte string
yields a value and a rest just when the byte string is what is written for the value, followed
by the rest.  The values that can be written are those whose lengths fit into 64 bits.
-/
import ConstStore.Text.Utf8

namespace ConstStore

/-- Why the front of a byte string is no value of a type. -/
inductive Codec.Fault where
  /-- The input ends inside a number, a byte string or a tag. -/
  | endOfInput
  /-- Fewer bytes are left than a text is said to have. -/
  | shortText
  /-- A truth value is neither 0 nor 1. -/
  | badBool (found : Nat)
  /-- The tag of an optional value is neither 0 nor 1. -/
  | badTag (found : Nat)
  /-- A text is not UTF-8. -/
  | badText (fault : Utf8.Fault)
  deriving Repr, DecidableEq

/-- The wording of a fault. -/
def Codec.Fault.message : Codec.Fault → String
  | endOfInput => "io error: unexpected end of file"
  | shortText => "io error: "
  | badBool found =>
    "invalid u8 while decoding bool, expected 0 or 1, found " ++ toString found
  | badTag found => "tag for enum is not valid, found " ++ toString found
  | badText fault => "string is not valid utf8: " ++ fault.message

/-- How to write the values of a type, and how to read one from the front of a byte string. -/
structure Codec (α : Type) where
  encode : α → Bytes
  decode : Bytes → Except Codec.Fault (α × Bytes)

namespace Codec

variable {α β : Type}

/-- **Reading accepts exactly what is written**, for the values that fit into the format. -/
def Exact (codec : Codec α) (fits : α → Prop) : Prop :=
  ∀ bytes value rest,
    codec.decode bytes = .ok (value, rest) ↔ fits value ∧ bytes = codec.encode value ++ rest

/-! ## 1. Numbers -/

/-- A number of `width` bytes at the front. -/
def readNat (width : Nat) (bytes : Bytes) : Except Fault (Nat × Bytes) :=
  match Bytes.splitNat? width bytes with
  | some read => .ok read
  | none => .error .endOfInput

/-- A codec for the values that a bijection takes to those of another codec. -/
def map (codec : Codec α) (forth : α → β) (back : β → α) : Codec β where
  encode value := codec.encode (back value)
  decode bytes := do
    let (value, rest) ← codec.decode bytes
    return (forth value, rest)

def u8 : Codec UInt8 where
  encode value := [value]
  decode
    | [] => .error .endOfInput
    | value :: rest => .ok (value, rest)

def u32 : Codec UInt32 where
  encode value := Bytes.ofNat 4 value.toNat
  decode bytes := do
    let (n, rest) ← readNat 4 bytes
    return (UInt32.ofNat n, rest)

def u64 : Codec UInt64 where
  encode value := Bytes.ofNat 8 value.toNat
  decode bytes := do
    let (n, rest) ← readNat 8 bytes
    return (UInt64.ofNat n, rest)

/-- Two's complement. -/
def i64 : Codec Int64 := u64.map UInt64.toInt64 Int64.toUInt64

/-! ## 2. Tags -/

def bool : Codec Bool where
  encode value := [if value then 1 else 0]
  decode bytes := do
    let (tag, rest) ← u8.decode bytes
    match tag.toNat with
    | 0 => return (false, rest)
    | 1 => return (true, rest)
    | found => throw (.badBool found)

/-- An optional value, behind a tag. -/
def option (codec : Codec α) : Codec (Option α) where
  encode
    | none => [0]
    | some value => 1 :: codec.encode value
  decode bytes := do
    let (tag, rest) ← u8.decode bytes
    match tag.toNat with
    | 0 => return (none, rest)
    | 1 =>
      let (value, rest) ← codec.decode rest
      return (some value, rest)
    | found => throw (.badTag found)

/-! ## 3. Values with a length -/

/-- The length that stands in front of a value. -/
def readLength (bytes : Bytes) : Except Fault (Nat × Bytes) := readNat 8 bytes

def writeLength (length : Nat) : Bytes := Bytes.ofNat 8 length

/-- A byte string.  One that is too short ends inside one of its bytes. -/
def bytes : Codec Bytes where
  encode value := writeLength value.length ++ value
  decode input := do
    let (length, rest) ← readLength input
    match Bytes.split? length rest with
    | some read => return read
    | none => throw .endOfInput

def string : Codec String where
  encode value := bytes.encode (Utf8.bytes value)
  decode input := do
    let (length, rest) ← readLength input
    match Bytes.split? length rest with
    | none => throw .shortText
    | some (text, rest) =>
      match Utf8.text? text with
      | some value => return (value, rest)
      | none => throw (.badText (Utf8.fault text))

/-- Reads `count` values; `read` holds those read before, the last one first. -/
def readMany (codec : Codec α) : (count : Nat) → (read : List α) → Bytes →
    Except Fault (List α × Bytes)
  | 0, read, rest => .ok (read.reverse, rest)
  | count + 1, read, input =>
    match codec.decode input with
    | .error fault => .error fault
    | .ok (value, rest) => readMany codec count (value :: read) rest

def list (codec : Codec α) : Codec (List α) where
  encode values := writeLength values.length ++ values.flatMap codec.encode
  decode input := do
    let (count, rest) ← readLength input
    readMany codec count [] rest

/-! ## 4. Compound values -/

/-- One value behind another. -/
def pair (first : Codec α) (second : Codec β) : Codec (α × β) where
  encode value := first.encode value.1 ++ second.encode value.2
  decode input := do
    let (a, rest) ← first.decode input
    let (b, rest) ← second.decode rest
    return ((a, b), rest)

/-- The bytes themselves, to the end of the input. -/
def raw : Codec Bytes where
  encode value := value
  decode input := .ok (input, [])

/-! ## 5. Whole values -/

/-- The value at the front of a byte string.  What follows it does not matter. -/
def read (codec : Codec α) (input : Bytes) : Except Fault α :=
  (codec.decode input).map (·.1)

end Codec
end ConstStore
