/-
# UTF-8

Text is stored in UTF-8.  `text?` reads a byte string that is UTF-8 throughout and `fault` says
where a byte string stops being so.  `lossy` reads any byte string, with U+FFFD in the place of
what is not UTF-8.

Where a sequence breaks off, the bytes that could still have begun a character are taken
together: they are one fault, and one replacement character.
-/
import ConstStore.Bytes

namespace ConstStore
namespace Utf8

/-! ## 1. Whole texts -/

/-- The bytes of a text. -/
def bytes (text : String) : Bytes := text.toByteArray.data.toList

/-- The text with these bytes, if there is one. -/
def text? (bytes : Bytes) : Option String := String.fromUTF8? ⟨bytes.toArray⟩

/-! ## 2. One character -/

/-- A byte that continues a character. -/
def isContinuation (b : UInt8) : Bool := 0x80 ≤ b && b ≤ 0xbf

/-- The number of bytes that follow the first byte of a character, or `none` for a byte that
starts none. -/
def following? (b : UInt8) : Option Nat :=
  if b ≤ 0x7f then some 0
  else if b < 0xc2 then none
  else if b ≤ 0xdf then some 1
  else if b ≤ 0xef then some 2
  else if b ≤ 0xf4 then some 3
  else none

/-- Whether the second byte of a character may follow its first.  The bounds keep out longer
forms of shorter characters, surrogates, and what lies above U+10FFFF. -/
def maySecond (first second : UInt8) : Bool :=
  if first = 0xe0 then 0xa0 ≤ second && second ≤ 0xbf
  else if first = 0xed then 0x80 ≤ second && second ≤ 0x9f
  else if first = 0xf0 then 0x90 ≤ second && second ≤ 0xbf
  else if first = 0xf4 then 0x80 ≤ second && second ≤ 0x8f
  else isContinuation second

/-- What stands at the front of a byte string. -/
inductive Front where
  /-- A character of `size` bytes. -/
  | character (size : Nat)
  /-- The first `size` bytes begin a character that does not go on. -/
  | broken (size : Nat)
  /-- The byte string ends inside a character. -/
  | cut
  deriving Repr, DecidableEq

/-- What stands in front of `rest`, behind a first byte. -/
def front (first : UInt8) (rest : Bytes) : Front :=
  match following? first with
  | none => .broken 1
  | some count =>
    let fits := fun (i, b) => if i = 0 then maySecond first b else isContinuation b
    let good := ((List.range count).zip rest).takeWhile fits
    if good.length = count then .character (count + 1)
    else if good.length = rest.length then .cut
    else .broken (good.length + 1)

/-! ## 3. Faults and replacements -/

/-- Where a byte string stops being UTF-8: the length of what is UTF-8 in front, and the size of
the broken character behind it, which is missing when the byte string ends inside it. -/
structure Fault where
  validUpTo : Nat
  broken : Option Nat
  deriving Repr, DecidableEq

/-- The wording of a fault. -/
def Fault.message (fault : Fault) : String :=
  match fault.broken with
  | some size =>
    "invalid utf-8 sequence of " ++ toString size ++ " bytes from index "
      ++ toString fault.validUpTo
  | none => "incomplete utf-8 byte sequence from index " ++ toString fault.validUpTo

/-- The fault behind `validUpTo` bytes of UTF-8, if there is one. -/
def faultFrom? (validUpTo : Nat) : Bytes → Option Fault
  | [] => none
  | first :: rest =>
    match front first rest with
    | .character size => faultFrom? (validUpTo + size) (rest.drop (size - 1))
    | .broken size => some ⟨validUpTo, some size⟩
    | .cut => some ⟨validUpTo, none⟩
  termination_by bytes => bytes.length

/-- The first fault of a byte string that is not UTF-8. -/
def fault (bytes : Bytes) : Fault := (faultFrom? 0 bytes).getD ⟨0, none⟩

/-- The text of a byte string, with U+FFFD for each fault; `read` holds what has been read, the
last part first. -/
def lossyOnto (read : List String) : Bytes → String
  | [] => String.join read.reverse
  | first :: rest =>
    match front first rest with
    | .character size =>
      lossyOnto ((text? (first :: rest.take (size - 1))).getD "" :: read) (rest.drop (size - 1))
    | .broken size => lossyOnto ("\ufffd" :: read) (rest.drop (size - 1))
    | .cut => String.join ("\ufffd" :: read).reverse
  termination_by bytes => bytes.length

/-- The text of any byte string. -/
def lossy (bytes : Bytes) : String :=
  match text? bytes with
  | some text => text
  | none => lossyOnto [] bytes

end Utf8
end ConstStore
