/-
# Frame headers

A frame starts with a header that says how much history its content needs and whether a checksum
follows.  It may also say how long the content is.

* `FrameHeader.read` reads a header; it takes at least one byte (`length_of_read`).
* `FrameHeader.isComplete` tells whether a frame is all there, from the sizes of its blocks.
-/
import ConstStore.Zstd.Block

namespace ConstStore
namespace Zstd

/-! ## 1. Frame headers -/

/-- The number at the start of a frame. -/
def magic : Nat := 0xfd2fb528

/-- The sixteen numbers from this one on start a skippable frame. -/
def skippableMagic : Nat := 0x184d2a50

/-- The largest window that is accepted, unless a frame is decoded in one go. -/
def maxWindow : Nat := 1 <<< 27

/-- No window byte may stand for a power of two above this, in any case. -/
def maxWindowLog : Nat := 31

/-- What a frame header says. -/
structure FrameHeader where
  /-- How far back a match may reach. -/
  window : Nat
  /-- The length of the content, where it is given. -/
  contentSize : Option Nat
  /-- Whether a checksum follows the last block. -/
  checksum : Bool
  deriving Repr, DecidableEq

namespace FrameHeader

/-- The size of the largest block of the frame. -/
def blockLimit (header : FrameHeader) : Nat := min header.window Block.maxSize

/-- The window that a window byte stands for: a power of two, enlarged by eighths. -/
def windowOf (b : Nat) : Nat :=
  let base := 1 <<< (10 + b / 8)
  base + base / 8 * (b % 8)

/-- The window byte, which a frame in a single segment does not have. -/
def readWindow? (single : Bool) (bytes : Bytes) : Option (Option Nat × Bytes) :=
  if single then some (none, bytes)
  else (Bytes.splitNat? 1 bytes).map fun (b, rest) => (some (windowOf b), rest)

/-- The content size, in 0, 1, 2, 4 or 8 bytes.  Two bytes count from 256 on. -/
def readContentSize? (code : Nat) (single : Bool) (bytes : Bytes) :
    Option (Option Nat × Bytes) :=
  match code with
  | 0 => if single then (Bytes.splitNat? 1 bytes).map fun (n, rest) => (some n, rest)
         else some (none, bytes)
  | 1 => (Bytes.splitNat? 2 bytes).map fun (n, rest) => (some (n + 256), rest)
  | 2 => (Bytes.splitNat? 4 bytes).map fun (n, rest) => (some n, rest)
  | _ => (Bytes.splitNat? 8 bytes).map fun (n, rest) => (some n, rest)

/-- Reads the header behind the magic number.  In a single segment the content is the window. -/
def read (bytes : Bytes) : Except Fault (FrameHeader × Bytes) := do
  let (flags, bytes) ← Fallible.require Fault.truncated (Bytes.splitNat? 1 bytes)
  Fallible.guard Fault.reservedBit (flags / 8 % 2 = 0)
  let single : Bool := flags / 32 % 2 = 1
  let (window, bytes) ← Fallible.require Fault.truncated (readWindow? single bytes)
  let idSize := match flags % 4 with | 0 => 0 | 1 => 1 | 2 => 2 | _ => 4
  let (dictionary, bytes) ← Fallible.require Fault.truncated (Bytes.splitNat? idSize bytes)
  let (contentSize, bytes) ←
    Fallible.require Fault.truncated (readContentSize? (flags / 64) single bytes)
  Fallible.guard Fault.dictionary (dictionary = 0)
  Fallible.guard Fault.windowTooLarge (∀ w ∈ window, w < 1 <<< (maxWindowLog + 1))
  return (⟨window.getD (contentSize.getD 0), contentSize, flags / 4 % 2 = 1⟩, bytes)

theorem length_of_readWindow? {single : Bool} {bytes rest : Bytes} {w : Option Nat}
    (h : readWindow? single bytes = some (w, rest)) : rest.length ≤ bytes.length := by
  unfold readWindow? at h
  split at h
  · simp_all
  · simp only [Option.map_eq_some_iff, Prod.mk.injEq, Prod.exists] at h
    obtain ⟨_, _, h, _, rfl⟩ := h
    have := Bytes.length_of_splitNat? h
    omega

theorem length_of_readContentSize? {code : Nat} {single : Bool} {bytes rest : Bytes}
    {size : Option Nat} (h : readContentSize? code single bytes = some (size, rest)) :
    rest.length ≤ bytes.length := by
  unfold readContentSize? at h
  repeat' split at h
  all_goals simp only [Option.map_eq_some_iff, Option.some.injEq, Prod.mk.injEq, Prod.exists] at h
  case h_1.isFalse => simp [h]
  all_goals
    obtain ⟨_, _, h, _, rfl⟩ := h
    have := Bytes.length_of_splitNat? h
    omega

/-- A header takes at least one byte. -/
theorem length_of_read {bytes rest : Bytes} {header : FrameHeader}
    (h : read bytes = .ok (header, rest)) : rest.length < bytes.length := by
  unfold read at h
  obtain ⟨⟨flags, rest₁⟩, h₁, h⟩ := Fallible.bind_eq_ok.mp h
  obtain ⟨_, _, h⟩ := Fallible.bind_eq_ok.mp h
  obtain ⟨⟨window, rest₂⟩, h₂, h⟩ := Fallible.bind_eq_ok.mp h
  obtain ⟨⟨dictionary, rest₃⟩, h₃, h⟩ := Fallible.bind_eq_ok.mp h
  obtain ⟨⟨size, rest₄⟩, h₄, h⟩ := Fallible.bind_eq_ok.mp h
  obtain ⟨_, _, h⟩ := Fallible.bind_eq_ok.mp h
  obtain ⟨_, _, h⟩ := Fallible.bind_eq_ok.mp h
  have := Bytes.length_of_splitNat? (Fallible.require_eq_ok.mp h₁)
  have := length_of_readWindow? (Fallible.require_eq_ok.mp h₂)
  have := Bytes.length_of_splitNat? (Fallible.require_eq_ok.mp h₃)
  have := length_of_readContentSize? (Fallible.require_eq_ok.mp h₄)
  obtain ⟨_, rfl⟩ := Prod.mk.inj (Fallible.pure_eq_ok.mp h)
  simp only at *
  omega

/-- Whether a frame with or without a checksum is all there, behind its header: as far as the sizes
of its blocks tell, and no block is of the reserved kind. -/
def isComplete (checksum : Bool) (bytes : Bytes) : Bool :=
  match _h : Bytes.splitNat? 3 bytes with
  | none => false
  | some (head, rest) =>
    match _h' : Bytes.split? (if head / 2 % 4 = 1 then 1 else head / 8) rest with
    | none => false
    | some (_, rest) =>
      if head / 2 % 4 = 3 then false
      else if head % 2 = 1 then !checksum || 4 ≤ rest.length
      else isComplete checksum rest
  termination_by bytes.length
  decreasing_by
    have := Bytes.length_of_splitNat? _h
    have := Bytes.length_of_split? _h'
    omega

end FrameHeader

end Zstd
end ConstStore
